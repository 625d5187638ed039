import MBootCore.Support.LittleEndian

/-!
# ByteStore — byte-addressed storage and buffers with fixed layouts

A store is a byte for every address. `slice` reads a run of bytes and
`overlay` writes one. What a sequence of writes leaves behind is worked out
from two facts: a slice under the last write is the data written
(`slice_overlay`), and a slice apart from it is the slice before
(`slice_overlay_apart`).

The second half is about buffers: words and byte arrays read at an offset,
and `patch`, which replaces the bytes at an offset of a buffer.
-/

namespace MBootCore

abbrev ByteStore : Type := Nat → UInt8

namespace ByteStore

def slice (store : ByteStore) (address size : Nat) : List UInt8 :=
  (List.range size).map fun i => store (address + i)

def overlay (store : ByteStore) (address : Nat) (data : List UInt8) : ByteStore := fun i =>
  if address ≤ i ∧ i < address + data.length then data.getD (i - address) 0 else store i

/-- The `n` bytes from `a` and the `m` bytes from `b` have none in common. -/
def Apart (a n b m : Nat) : Prop := a + n ≤ b ∨ b + m ≤ a

instance (a n b m : Nat) : Decidable (Apart a n b m) := inferInstanceAs (Decidable (_ ∨ _))

theorem Apart.mono {a n n' b m m' : Nat} (h : Apart a n b m) (hn : n' ≤ n) (hm : m' ≤ m) :
    Apart a n' b m' := by
  rcases h with h | h
  · exact .inl (by omega)
  · exact .inr (by omega)

/-! ## Slices -/

@[simp] theorem slice_length (store : ByteStore) (address size : Nat) :
    (store.slice address size).length = size := by
  simp [slice]

theorem slice_congr {s t : ByteStore} {address size : Nat}
    (h : ∀ i, address ≤ i → i < address + size → s i = t i) :
    s.slice address size = t.slice address size := by
  apply List.map_congr_left
  intro i hi
  exact h _ (by omega) (by simp only [List.mem_range] at hi; omega)

theorem slice_add (store : ByteStore) (address n m : Nat) :
    store.slice address (n + m) = store.slice address n ++ store.slice (address + n) m := by
  simp only [slice, List.range_add, List.map_append, List.map_map, Function.comp_def, Nat.add_assoc]

/-- A longer slice starts with a shorter one. -/
theorem slice_split (store : ByteStore) {address n k : Nat} (h : n ≤ k) :
    store.slice address k = store.slice address n ++ store.slice (address + n) (k - n) := by
  rw [← slice_add, Nat.add_sub_cancel' h]

/-- A part of a slice is a slice. -/
theorem slice_drop_take (store : ByteStore) (address : Nat) {n k m : Nat} (h : k + m ≤ n) :
    ((store.slice address n).drop k).take m = store.slice (address + k) m := by
  have hdrop : (store.slice address n).drop k = store.slice (address + k) (n - k) := by
    rw [slice_split store (show k ≤ n by omega), List.drop_left' (slice_length _ _ _)]
  rw [hdrop, slice_split store (show m ≤ n - k by omega), List.take_left' (slice_length _ _ _)]

theorem slice_getElem (store : ByteStore) {address size i : Nat}
    (h : i < (store.slice address size).length) :
    (store.slice address size)[i] = store (address + i) := by
  simp [slice]

/-- What a slice starts with is what the store holds there. -/
theorem prefix_slice (store : ByteStore) (address size : Nat) (data : List UInt8) :
    data <+: store.slice address size ↔
      data.length ≤ size ∧ ∀ i < data.length, store (address + i) = data.getD i 0 := by
  constructor
  · intro hprefix
    refine ⟨by simpa using hprefix.length_le, ?_⟩
    intro i hi
    have hbyte := hprefix.getElem hi
    rw [slice_getElem] at hbyte
    rw [List.getD_eq_getElem _ _ hi, hbyte]
  · rintro ⟨hlength, hbytes⟩
    rw [List.prefix_iff_eq_take, slice_split store hlength,
      List.take_left' (slice_length _ _ _)]
    apply List.ext_getElem (by rw [slice_length])
    intro i hi _
    rw [slice_getElem, hbytes i hi, List.getD_eq_getElem _ _ hi]

theorem slice_getD (store : ByteStore) (address : Nat) {size i : Nat} (h : i < size) :
    (store.slice address size).getD i 0 = store (address + i) := by
  simp [slice, h]

/-! ## Writes -/

theorem overlay_inside {store : ByteStore} {address i : Nat} {data : List UInt8}
    (hlo : address ≤ i) (hhi : i < address + data.length) :
    store.overlay address data i = data.getD (i - address) 0 :=
  if_pos ⟨hlo, hhi⟩

theorem overlay_apart {store : ByteStore} {address i : Nat} {data : List UInt8}
    (h : Apart i 1 address data.length) : store.overlay address data i = store i := by
  have houtside : ¬ (address ≤ i ∧ i < address + data.length) := by
    rcases h with h | h <;> omega
  rw [overlay, if_neg houtside]

theorem slice_overlay_apart {store : ByteStore} {a n address : Nat} {data : List UInt8}
    (h : Apart a n address data.length) :
    (store.overlay address data).slice a n = store.slice a n := by
  apply slice_congr
  intro i hlo hhi
  apply overlay_apart
  rcases h with h | h
  · exact .inl (by omega)
  · exact .inr (by omega)

theorem slice_overlay (store : ByteStore) (address : Nat) (data : List UInt8) :
    (store.overlay address data).slice address data.length = data := by
  apply List.ext_getElem (by simp)
  intro i _ hi
  simp [slice, overlay, hi]

theorem overlay_replicate (store : ByteStore) (address size : Nat) (byte : UInt8) (i : Nat) :
    store.overlay address (List.replicate size byte) i
      = if address ≤ i ∧ i < address + size then byte else store i := by
  rw [overlay, List.length_replicate]
  by_cases h : address ≤ i ∧ i < address + size
  · rw [if_pos h, if_pos h, List.getD_replicate _ (by omega)]
  · rw [if_neg h, if_neg h]

@[simp] theorem overlay_nil (store : ByteStore) (address : Nat) :
    store.overlay address [] = store := by
  funext i
  exact overlay_apart (by rcases Nat.lt_or_ge i address with h | h <;> simp [Apart] <;> omega)

/-- Two writes in a row are one. -/
theorem overlay_append (store : ByteStore) (address : Nat) (xs ys : List UInt8) :
    (store.overlay address xs).overlay (address + xs.length) ys
      = store.overlay address (xs ++ ys) := by
  funext i
  by_cases hlo : address ≤ i
  · by_cases hfirst : i < address + xs.length
    · rw [overlay_apart (.inl (by omega)), overlay_inside hlo hfirst,
        overlay_inside hlo (by rw [List.length_append]; omega), List.getD_append _ _ _ _ (by omega)]
    · by_cases hsecond : i < address + xs.length + ys.length
      · rw [overlay_inside (by omega) hsecond,
          overlay_inside hlo (by rw [List.length_append]; omega),
          List.getD_append_right _ _ _ _ (by omega), Nat.sub_sub]
      · rw [overlay_apart (.inr (by omega)), overlay_apart (.inr (by omega)),
          overlay_apart (.inr (by rw [List.length_append]; omega))]
  · rw [overlay_apart (.inl (by omega)), overlay_apart (.inl (by omega)),
      overlay_apart (.inl (by omega))]

end ByteStore

/-! ## Words in a buffer -/

namespace LittleEndian

def readLE16 (data : List UInt8) (off : Nat) : UInt16 :=
  if off + 1 ≥ data.length then 0
  else decode16 (data.getD off 0) (data.getD (off + 1) 0)

def readLE32 (data : List UInt8) (off : Nat) : UInt32 :=
  if off + 3 ≥ data.length then 0
  else decode32 (data.getD off 0) (data.getD (off + 1) 0) (data.getD (off + 2) 0)
    (data.getD (off + 3) 0)

def readLE64 (data : List UInt8) (off : Nat) : UInt64 :=
  if off + 7 ≥ data.length then 0
  else decode64 (data.getD off 0) (data.getD (off + 1) 0) (data.getD (off + 2) 0)
    (data.getD (off + 3) 0) (data.getD (off + 4) 0) (data.getD (off + 5) 0)
    (data.getD (off + 6) 0) (data.getD (off + 7) 0)

/-- `n` bytes copied into a `std::array`. -/
def readArray (n : Nat) (data : List UInt8) (off : Nat) : Vector UInt8 n :=
  Vector.ofFn fun i => data.getD (off + i.val) 0

/-- `n` 16-bit words in a row. -/
def readWords (n : Nat) (data : List UInt8) (off : Nat) : Vector UInt16 n :=
  Vector.ofFn fun i => readLE16 data (off + i.val * 2)

theorem getD_skip {xs ys : List UInt8} {off : Nat} (h : xs.length ≤ off) (i : Nat) :
    (xs ++ ys).getD (off + i) 0 = ys.getD (off - xs.length + i) 0 := by
  rw [List.getD_eq_getElem?_getD, List.getD_eq_getElem?_getD,
    List.getElem?_append_right (by omega), show off + i - xs.length = off - xs.length + i by omega]

section Skip

variable {xs ys : List UInt8} {off : Nat}

/-- Reading past a first part is reading in the second. -/
theorem readLE16_skip (h : xs.length ≤ off) :
    readLE16 (xs ++ ys) off = readLE16 ys (off - xs.length) := by
  have hbound : off + 1 ≥ (xs ++ ys).length ↔ off - xs.length + 1 ≥ ys.length := by
    rw [List.length_append]
    omega
  simp only [readLE16, hbound, getD_skip h, show (xs ++ ys).getD off 0 = ys.getD (off - xs.length) 0
    from getD_skip h 0]

theorem readLE32_skip (h : xs.length ≤ off) :
    readLE32 (xs ++ ys) off = readLE32 ys (off - xs.length) := by
  have hbound : off + 3 ≥ (xs ++ ys).length ↔ off - xs.length + 3 ≥ ys.length := by
    rw [List.length_append]
    omega
  simp only [readLE32, hbound, getD_skip h, show (xs ++ ys).getD off 0 = ys.getD (off - xs.length) 0
    from getD_skip h 0]

theorem readLE64_skip (h : xs.length ≤ off) :
    readLE64 (xs ++ ys) off = readLE64 ys (off - xs.length) := by
  have hbound : off + 7 ≥ (xs ++ ys).length ↔ off - xs.length + 7 ≥ ys.length := by
    rw [List.length_append]
    omega
  simp only [readLE64, hbound, getD_skip h, show (xs ++ ys).getD off 0 = ys.getD (off - xs.length) 0
    from getD_skip h 0]

theorem readArray_skip {n : Nat} (h : xs.length ≤ off) :
    readArray n (xs ++ ys) off = readArray n ys (off - xs.length) := by
  simp only [readArray, getD_skip h]

theorem readWords_skip {n : Nat} (h : xs.length ≤ off) :
    readWords n (xs ++ ys) off = readWords n ys (off - xs.length) := by
  have hword (i : Nat) : readLE16 (xs ++ ys) (off + i * 2)
      = readLE16 ys (off - xs.length + i * 2) := by
    rw [readLE16_skip (by omega), show off + i * 2 - xs.length = off - xs.length + i * 2 by omega]
  simp only [readWords, hword]

end Skip

section Congr

variable {xs ys : List UInt8} {off : Nat}

/-- A word depends on its bytes only. -/
theorem readLE16_congr (hxs : off + 2 ≤ xs.length) (hys : off + 2 ≤ ys.length)
    (h : ∀ i < 2, xs.getD (off + i) 0 = ys.getD (off + i) 0) :
    readLE16 xs off = readLE16 ys off := by
  rw [readLE16, readLE16, if_neg (by omega), if_neg (by omega), h 1 (by decide),
    show xs.getD off 0 = ys.getD off 0 from h 0 (by decide)]

theorem readLE32_congr (hxs : off + 4 ≤ xs.length) (hys : off + 4 ≤ ys.length)
    (h : ∀ i < 4, xs.getD (off + i) 0 = ys.getD (off + i) 0) :
    readLE32 xs off = readLE32 ys off := by
  rw [readLE32, readLE32, if_neg (by omega), if_neg (by omega), h 1 (by decide), h 2 (by decide),
    h 3 (by decide), show xs.getD off 0 = ys.getD off 0 from h 0 (by decide)]

theorem readLE64_congr (hxs : off + 8 ≤ xs.length) (hys : off + 8 ≤ ys.length)
    (h : ∀ i < 8, xs.getD (off + i) 0 = ys.getD (off + i) 0) :
    readLE64 xs off = readLE64 ys off := by
  rw [readLE64, readLE64, if_neg (by omega), if_neg (by omega), h 1 (by decide), h 2 (by decide),
    h 3 (by decide), h 4 (by decide), h 5 (by decide), h 6 (by decide), h 7 (by decide),
    show xs.getD off 0 = ys.getD off 0 from h 0 (by decide)]

theorem readArray_congr {n : Nat} (h : ∀ i < n, xs.getD (off + i) 0 = ys.getD (off + i) 0) :
    readArray n xs off = readArray n ys off := by
  apply Vector.ext
  intro i hi
  simpa only [readArray, Vector.getElem_ofFn] using h i hi

end Congr

/-! Reading back what was encoded at the front. -/

@[simp] theorem readLE16_encode16 (v : UInt16) (rest : List UInt8) :
    readLE16 (encode16 v ++ rest) 0 = v := by
  simp [readLE16, encode16]

@[simp] theorem readLE32_encode32 (v : UInt32) (rest : List UInt8) :
    readLE32 (encode32 v ++ rest) 0 = v := by
  simp [readLE32, encode32]

@[simp] theorem readLE64_encode64 (v : UInt64) (rest : List UInt8) :
    readLE64 (encode64 v ++ rest) 0 = v := by
  simp [readLE64, encode64]

@[simp] theorem readArray_toList {n : Nat} (v : Vector UInt8 n) (rest : List UInt8) :
    readArray n (v.toList ++ rest) 0 = v := by
  apply Vector.ext
  intro i hi
  simp [readArray, List.getElem?_append_left]

theorem flatMap_encode16_length (words : List UInt16) :
    (words.flatMap encode16).length = words.length * 2 := by
  induction words with
  | nil => rfl
  | cons w words ih =>
    rw [List.flatMap_cons, List.length_append, ih, encode16_length, List.length_cons]
    omega

theorem readLE16_flatMap (words : List UInt16) {i : Nat} (h : i < words.length)
    (rest : List UInt8) : readLE16 (words.flatMap encode16 ++ rest) (i * 2) = words[i] := by
  induction words generalizing i with
  | nil => cases h
  | cons w words ih =>
    rw [List.flatMap_cons, List.append_assoc]
    cases i with
    | zero => exact readLE16_encode16 w _
    | succ i =>
      rw [readLE16_skip (by rw [encode16_length]; omega), encode16_length,
        show (i + 1) * 2 - 2 = i * 2 by omega, ih (Nat.lt_of_succ_lt_succ h)]
      rfl

@[simp] theorem readWords_encode16 {n : Nat} (v : Vector UInt16 n) (rest : List UInt8) :
    readWords n (v.toList.flatMap encode16 ++ rest) 0 = v := by
  apply Vector.ext
  intro i hi
  have hword := readLE16_flatMap v.toList (i := i) (by simpa using hi) rest
  simpa [readWords] using hword

/-! Encoding again what was read. -/

section Reread

variable {data : List UInt8} {off : Nat}

theorem take_drop_eq_map {n : Nat} (h : off + n ≤ data.length) :
    (data.drop off).take n = (List.range n).map fun i => data.getD (off + i) 0 := by
  apply List.ext_getElem
  · simp only [List.length_take, List.length_drop, List.length_map, List.length_range]
    omega
  · intro i hi _
    have hlength : off + i < data.length := by
      simp only [List.length_take, List.length_drop] at hi
      omega
    simp [hlength]

theorem take_drop_add (n m : Nat) : (data.drop off).take (n + m)
    = (data.drop off).take n ++ (data.drop (off + n)).take m := by
  rw [List.take_add, List.drop_drop]

theorem encode16_readLE16 (h : off + 2 ≤ data.length) :
    encode16 (readLE16 data off) = (data.drop off).take 2 := by
  rw [take_drop_eq_map h, readLE16, if_neg (by omega), encode16_decode16]
  rfl

theorem encode32_readLE32 (h : off + 4 ≤ data.length) :
    encode32 (readLE32 data off) = (data.drop off).take 4 := by
  rw [take_drop_eq_map h, readLE32, if_neg (by omega), encode32_decode32]
  rfl

theorem encode64_readLE64 (h : off + 8 ≤ data.length) :
    encode64 (readLE64 data off) = (data.drop off).take 8 := by
  rw [take_drop_eq_map h, readLE64, if_neg (by omega), encode64_decode64]
  rfl

theorem toList_readArray {n : Nat} (h : off + n ≤ data.length) :
    (readArray n data off).toList = (data.drop off).take n := by
  rw [take_drop_eq_map h]
  apply List.ext_getElem
  · simp
  · intro i hi _
    simp [readArray]

theorem encode16_range {n : Nat} (h : off + n * 2 ≤ data.length) :
    ((List.range n).map fun i => readLE16 data (off + i * 2)).flatMap encode16
      = (data.drop off).take (n * 2) := by
  induction n with
  | zero => simp
  | succ n ih =>
    rw [List.range_succ, List.map_append, List.flatMap_append, ih (by omega), Nat.succ_mul,
      take_drop_add]
    simp [encode16_readLE16 (show off + n * 2 + 2 ≤ data.length by omega)]

theorem encode16_readWords {n : Nat} (h : off + n * 2 ≤ data.length) :
    (readWords n data off).toList.flatMap encode16 = (data.drop off).take (n * 2) := by
  rw [← encode16_range h]
  congr 1
  apply List.ext_getElem
  · simp
  · intro i hi _
    simp [readWords]

end Reread

/-! ## Patches -/

/-- The bytes of `data` from `off` on replaced by `bytes`. -/
def patch (data : List UInt8) (off : Nat) (bytes : List UInt8) : List UInt8 :=
  data.take off ++ bytes ++ data.drop (off + bytes.length)

theorem length_patch {data : List UInt8} {off : Nat} {bytes : List UInt8}
    (h : off + bytes.length ≤ data.length) : (patch data off bytes).length = data.length := by
  simp only [patch, List.length_append, List.length_take, List.length_drop]
  omega

/-- Patching at the end of a first part leaves that part alone. -/
theorem patch_append (xs ys bytes : List UInt8) :
    patch (xs ++ ys) xs.length bytes = xs ++ (bytes ++ ys.drop bytes.length) := by
  rw [patch, List.take_left, List.drop_append, List.append_assoc,
    List.drop_eq_nil_of_le (by omega), List.nil_append, Nat.add_sub_cancel_left]

end LittleEndian

end MBootCore
