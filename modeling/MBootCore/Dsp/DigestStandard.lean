import MBootCore.Dsp.PackageDigest
import MBootCore.Support.Sha256
import MBootCore.Support.LittleEndian
import Mathlib.Tactic.Common

/-!
# Dsp — DigestStandard

`sha256String` against the standard's hash function. The compression of a block is the
standard's (`compress_toHash`), and so are the blocks of the message; but the bytes of the padding
are counted in the length too, so the last block never is the one that the standard hashes.
-/

namespace MBootCore.PackageDigest

def toHash (r : Registers) : Sha256.Hash where
  a := r.a
  b := r.b
  c := r.c
  d := r.d
  e := r.e
  f := r.f
  g := r.g
  h := r.hh

/-! ## Constants -/

/-- The integral parts of the cube roots of the primes. -/
def wholeRoots : List Nat :=
  Sha256.primes.map fun p => if p < 8 then 1 else if p < 27 then 2 else if p < 64 then 3
    else if p < 125 then 4 else if p < 216 then 5 else 6

theorem k_eq (t : Nat) (h : t < 64) : Sha256.K t = k.getD t 0 := by
  have hbounds : ∀ t : Fin 64,
      (wholeRoots.getD t 0 * 2 ^ 32 + (k.getD t 0).toNat) ^ 3
          ≤ Sha256.primes.getD t 0 * 2 ^ (32 * 3) ∧
        Sha256.primes.getD t 0 * 2 ^ (32 * 3)
          < (wholeRoots.getD t 0 * 2 ^ 32 + (k.getD t 0).toNat + 1) ^ 3 ∧
        wholeRoots.getD t 0 < Sha256.primes.getD t 0 := by
    decide
  obtain ⟨hle, hlt, hp⟩ := hbounds ⟨t, h⟩
  exact Sha256.rootWord_eq hle hlt hp

theorem squareRootWord {p whole : Nat} {word : UInt32}
    (h : (whole * 2 ^ 32 + word.toNat) ^ 2 ≤ p * 2 ^ (32 * 2) ∧
      p * 2 ^ (32 * 2) < (whole * 2 ^ 32 + word.toNat + 1) ^ 2 ∧ whole < p) :
    Sha256.rootWord 2 p = word :=
  Sha256.rootWord_eq h.1 h.2.1 h.2.2

theorem toHash_start : toHash start = Sha256.initial := by
  rw [Sha256.initial,
    @squareRootWord 2 1 0x6A09E667 (by decide),
    @squareRootWord 3 1 0xBB67AE85 (by decide),
    @squareRootWord 5 2 0x3C6EF372 (by decide),
    @squareRootWord 7 2 0xA54FF53A (by decide),
    @squareRootWord 11 3 0x510E527F (by decide),
    @squareRootWord 13 3 0x9B05688C (by decide),
    @squareRootWord 17 4 0x1F83D9AB (by decide),
    @squareRootWord 19 4 0x5BE0CD19 (by decide)]
  rfl

/-! ## Compression -/

theorem toHash_round (r : Registers) (k w : UInt32) :
    toHash (round r (k, w)) = Sha256.round k w (toHash r) := rfl

theorem or_reverse (a b c d : UInt32) : a ||| b ||| c ||| d = d ||| c ||| b ||| a := by
  rw [UInt32.or_comm _ d, UInt32.or_comm _ c, UInt32.or_comm a b, ← UInt32.or_assoc,
    ← UInt32.or_assoc]

theorem add_reverse (a b c d : UInt32) : a + b + c + d = d + c + b + a := by
  rw [UInt32.add_comm _ d, UInt32.add_comm _ c, UInt32.add_comm a b, ← UInt32.add_assoc,
    ← UInt32.add_assoc]

/-- Shifting and or-ing the four bytes adds them up. -/
theorem words_getD (block : ByteBuffer) {t : Nat} (h : t < 16) :
    (words block).getD t 0 = Sha256.messageWord block t := by
  have hbytes (b0 b1 b2 b3 : UInt8) : (b0.toUInt32 <<< 24) ||| (b1.toUInt32 <<< 16) |||
      (b2.toUInt32 <<< 8) ||| b3.toUInt32 = LittleEndian.decode32 b3 b2 b1 b0 :=
    or_reverse _ _ _ _
  rw [words, List.getD_eq_getElem?_getD, List.getElem?_map, List.getElem?_range h,
    Option.map_some, Option.getD_some, hbytes, ← UInt32.toNat_inj, LittleEndian.decode32_toNat,
    Sha256.messageWord, UInt32.toNat_ofNat']
  have h0 := (block.getD (t * 4) 0).toNat_lt
  have h1 := (block.getD (t * 4 + 1) 0).toNat_lt
  have h2 := (block.getD (t * 4 + 2) 0).toNat_lt
  have h3 := (block.getD (t * 4 + 3) 0).toNat_lt
  omega

/-- The words that are computed so far. -/
theorem foldl_extend (block : ByteBuffer) (n : Nat) :
    (List.range' 16 n).foldl extend (words block)
      = (List.range (16 + n)).map (Sha256.schedule (Sha256.messageWord block)) := by
  induction n with
  | zero =>
    apply List.ext_getElem
    · simp [words]
    · intro t ht _
      have h16 : t < 16 := by simpa [words] using ht
      have hword := List.getD_eq_getElem (words block) 0 ht
      rw [List.getElem_map, List.getElem_range, Sha256.schedule_of_lt _ h16, ← words_getD block h16]
      exact hword.symm
  | succ n ih =>
    have hget (i : Nat) (hi : i < 16 + n) :
        ((List.range (16 + n)).map (Sha256.schedule (Sha256.messageWord block))).getD i 0
          = Sha256.schedule (Sha256.messageWord block) i := by
      rw [List.getD_eq_getElem _ _ (by simpa using hi), List.getElem_map, List.getElem_range]
    rw [List.range'_concat, List.foldl_append, ih, List.foldl_cons, List.foldl_nil, extend,
      hget _ (by omega), hget _ (by omega), hget _ (by omega), hget _ (by omega),
      ← Nat.add_assoc, List.range_succ, List.map_append, Nat.one_mul]
    congr 1
    rw [List.map_cons, List.map_nil, Sha256.schedule_of_ge _ (t := 16 + n) (by omega),
      ← add_reverse]
    rfl

theorem compress_toHash (h : Registers) (block : ByteBuffer) :
    toHash (compress h block) = Sha256.compress (toHash h) block := by
  have hzip : k.zip (schedule block) = (List.range 64).map fun t =>
      (Sha256.K t, Sha256.schedule (Sha256.messageWord block) t) := by
    rw [schedule, foldl_extend]
    apply List.ext_getElem
    · simp [k]
    · intro t ht ht'
      have h64 : t < 64 := by simpa using ht'
      rw [List.getElem_zip, List.getElem_map, List.getElem_map, List.getElem_range,
        k_eq t h64, List.getD_eq_getElem _ _ (show t < k.length from h64)]
  have hrounds (rounds : List Nat) (r : Registers) :
      toHash ((rounds.map fun t => (Sha256.K t,
          Sha256.schedule (Sha256.messageWord block) t)).foldl round r)
        = rounds.foldl (fun v t => Sha256.round (Sha256.K t)
            (Sha256.schedule (Sha256.messageWord block) t) v) (toHash r) := by
    induction rounds generalizing r with
    | nil => rfl
    | cons t rest ih => rw [List.map_cons, List.foldl_cons, List.foldl_cons, ih, toHash_round]
  have hfold := hrounds (List.range 64) h
  rw [← hzip] at hfold
  rw [Sha256.compress, ← hfold]
  unfold compress
  generalize (k.zip (schedule block)).foldl round h = r
  rfl

/-! ## The bytes that are processed -/

/-- A byte for which the buffer has room. -/
structure Collecting (s : State) : Prop where
  room : s.buf.length < 64

theorem process_bitLen (s : State) (byte : UInt8) : (process s byte).bitLen = s.bitLen + 8 := by
  unfold process
  dsimp only
  split
  · rfl
  · rfl

/-- What is hashed in the end is what is in the buffer, then the rest. -/
theorem process_hashBlocks {s : State} (hs : Collecting s) (byte : UInt8) (rest : List UInt8) :
    Collecting (process s byte) ∧
      Sha256.hashBlocks (toHash (process s byte).h) ((process s byte).buf ++ rest)
        = Sha256.hashBlocks (toHash s.h) (s.buf ++ byte :: rest) := by
  have hroom := hs.room
  unfold process
  dsimp only
  split
  · rename_i hfull
    refine ⟨⟨Nat.zero_lt_succ 63⟩, ?_⟩
    rw [compress_toHash, List.nil_append, ← Sha256.hashBlocks_block hfull, List.append_assoc,
      List.singleton_append]
  · rename_i hroom'
    rw [List.length_append, List.length_singleton] at hroom'
    refine ⟨⟨?_⟩, ?_⟩
    · rw [List.length_append, List.length_singleton]
      omega
    · rw [List.append_assoc, List.singleton_append]

theorem process_length {s : State} (hs : Collecting s) (byte : UInt8) :
    (process s byte).buf.length = (s.buf.length + 1) % 64 := by
  have hroom := hs.room
  unfold process
  dsimp only
  split
  · rename_i hfull
    rw [List.length_append, List.length_singleton] at hfull
    rw [hfull]
    rfl
  · rename_i hroom'
    rw [List.length_append, List.length_singleton] at hroom' ⊢
    omega

/-- The state after some bytes. -/
structure Processed (bytes : List UInt8) (s : State) : Prop where
  collecting : Collecting s
  hashed : ∀ rest, Sha256.hashBlocks (toHash s.h) (s.buf ++ rest)
    = Sha256.hashBlocks Sha256.initial (bytes ++ rest)
  length : s.buf.length = bytes.length % 64
  bitLen : s.bitLen = UInt64.ofNat (8 * bytes.length)

theorem Processed.start : Processed [] {} where
  collecting := ⟨by decide⟩
  hashed := by
    intro rest
    rw [toHash_start]
  length := rfl
  bitLen := rfl

theorem Processed.process {bytes : List UInt8} {s : State} (h : Processed bytes s)
    (byte : UInt8) : Processed (bytes ++ [byte]) (process s byte) where
  collecting := (process_hashBlocks h.collecting byte []).1
  hashed := by
    intro rest
    rw [(process_hashBlocks h.collecting byte rest).2, h.hashed, List.append_assoc,
      List.singleton_append]
  length := by
    rw [process_length h.collecting, h.length, List.length_append, List.length_singleton]
    omega
  bitLen := by
    rw [process_bitLen, h.bitLen, List.length_append, List.length_singleton, Nat.mul_add,
      UInt64.ofNat_add]
    rfl

theorem Processed.foldl {bytes : List UInt8} {s : State} (h : Processed bytes s)
    (more : List UInt8) : Processed (bytes ++ more) (more.foldl PackageDigest.process s) := by
  induction more generalizing bytes s with
  | nil =>
    rw [List.append_nil]
    exact h
  | cons byte more ih =>
    have hmore := ih (h.process byte)
    rw [List.append_assoc, List.singleton_append] at hmore
    exact hmore

/-- The zeros are those of the standard. -/
theorem Processed.padZeros {bytes : List UInt8} {s : State} (h : Processed bytes s) {fuel z : Nat}
    (hz : (bytes.length + z) % 64 = 56) (hleast : z < 64) (hfuel : z < fuel) :
    Processed (bytes ++ List.replicate z 0) (PackageDigest.padZeros fuel s) := by
  induction fuel generalizing bytes s z with
  | zero => cases hfuel
  | succ fuel ih =>
    rw [PackageDigest.padZeros]
    cases z with
    | zero =>
      rw [if_pos (by rw [h.length]; exact hz), List.replicate_zero, List.append_nil]
      exact h
    | succ z =>
      rw [if_neg (by rw [h.length]; omega), List.replicate_succ]
      have hnext := ih (h.process 0) (z := z)
        (by rw [List.length_append, List.length_singleton]; omega) (by omega) (by omega)
      rw [List.append_assoc, List.singleton_append] at hnext
      exact hnext

/-! ## The length -/

/-- The bytes of the length as they are hashed, for a message of `n` bytes: each is taken of the
count of all the bytes processed before it. -/
def countedBytes (n : Nat) : List UInt8 :=
  [7, 6, 5, 4, 3, 2, 1, 0].map fun i =>
    UInt8.ofNat (8 * (n + 1 + Sha256.zeroBytes n + (7 - i)) / 256 ^ i)

theorem Processed.processLength {bytes : List UInt8} {s : State} (h : Processed bytes s) {i : Nat}
    (hi : i < 8) : Processed (bytes ++ [UInt8.ofNat (8 * bytes.length / 256 ^ i)])
      (processLength s i) := by
  have hbyte : (s.bitLen >>> (i.toUInt64 * 8)).toUInt8
      = UInt8.ofNat (8 * bytes.length / 256 ^ i) := by
    rw [h.bitLen]
    apply UInt8.toNat_inj.mp
    have hshift : (i.toUInt64 * 8).toNat % 64 = 8 * i := by
      rw [UInt64.toNat_mul, Nat.toUInt64, UInt64.toNat_ofNat']
      change i % 2 ^ 64 * 8 % 2 ^ 64 % 64 = _
      omega
    rw [UInt64.toNat_toUInt8, UInt64.toNat_shiftRight, hshift, UInt64.toNat_ofNat',
      UInt8.toNat_ofNat', Nat.shiftRight_eq_div_pow, Nat.pow_mul]
    -- what the count loses at 64 bits is beyond the eight bits that are taken
    have hsplit : 2 ^ 64 = 256 ^ i * 256 ^ (8 - i) := by
      rw [← Nat.pow_add, Nat.add_sub_cancel' (Nat.le_of_lt hi)]
      decide
    have hdvd : 2 ^ 8 ∣ 256 ^ (8 - i) := dvd_pow_self 256 (by omega)
    change 8 * bytes.length % 2 ^ 64 / 256 ^ i % 2 ^ 8 = _
    rw [hsplit, Nat.mod_mul_right_div_self, Nat.mod_mod_of_dvd _ hdvd]
  rw [PackageDigest.processLength, hbyte]
  exact h.process _

/-- The length is not the one that the standard demands. -/
theorem countedBytes_ne (n : Nat) : countedBytes n ≠ Sha256.lengthBytes n := by
  intro h
  have hlast : UInt8.ofNat (8 * (n + 1 + Sha256.zeroBytes n + 7)) = UInt8.ofNat (8 * n) := by
    simpa [countedBytes, Sha256.lengthBytes] using congrArg (·.getD 7 0) h
  have hsecond : UInt8.ofNat (8 * (n + 1 + Sha256.zeroBytes n + 6) / 256)
      = UInt8.ofNat (8 * n / 256) := by
    simpa [countedBytes, Sha256.lengthBytes] using congrArg (·.getD 6 0) h
  rw [← UInt8.toNat_inj, UInt8.toNat_ofNat', UInt8.toNat_ofNat', Sha256.zeroBytes]
    at hlast hsecond
  omega

/-- All the bytes that are hashed. -/
def processedBytes (data : ByteBuffer) : List UInt8 :=
  Sha256.body data ++ countedBytes data.length

theorem Processed.processLengths {bytes : List UInt8} {s : State} (h : Processed bytes s) {n : Nat}
    (hn : n ≤ 8) :
    Processed (bytes ++ (List.range n).reverse.map fun i =>
        UInt8.ofNat (8 * (bytes.length + (n - 1 - i)) / 256 ^ i))
      ((List.range n).reverse.foldl PackageDigest.processLength s) := by
  induction n generalizing bytes s with
  | zero =>
    rw [List.range_zero, List.reverse_nil, List.map_nil, List.append_nil]
    exact h
  | succ n ih =>
    have hnext := ih (h.processLength (i := n) (by omega)) (by omega)
    rw [List.append_assoc, List.length_append, List.length_singleton,
      List.singleton_append] at hnext
    rw [List.range_succ, List.reverse_append, List.reverse_singleton, List.singleton_append,
      List.map_cons, List.foldl_cons]
    have hrest : ((List.range n).reverse.map fun i =>
          UInt8.ofNat (8 * (bytes.length + (n + 1 - 1 - i)) / 256 ^ i))
        = (List.range n).reverse.map fun i =>
          UInt8.ofNat (8 * (bytes.length + 1 + (n - 1 - i)) / 256 ^ i) := by
      apply List.map_congr_left
      intro i hi
      rw [List.mem_reverse, List.mem_range] at hi
      rw [show bytes.length + (n + 1 - 1 - i) = bytes.length + 1 + (n - 1 - i) by omega]
    rw [hrest, Nat.add_sub_cancel, Nat.sub_self, Nat.add_zero]
    exact hnext

theorem Processed.lengths {data : ByteBuffer} {s : State} (h : Processed (Sha256.body data) s) :
    Processed (processedBytes data)
      ([7, 6, 5, 4, 3, 2, 1, 0].foldl PackageDigest.processLength s) := by
  have hbody : (Sha256.body data).length = data.length + 1 + Sha256.zeroBytes data.length := by
    rw [Sha256.body, List.length_append, List.length_cons, List.length_replicate]
    omega
  have hall := h.processLengths (Nat.le_refl 8)
  rw [hbody] at hall
  exact hall

theorem sha256String_state (data : ByteBuffer) : ∃ s,
    sha256String data = String.ofList (hex s.h) ∧ Processed (processedBytes data) s := by
  have hdata := Processed.start.foldl data
  rw [List.nil_append] at hdata
  obtain ⟨hz, -⟩ := Sha256.zeroBytes_least data.length
  have hlt : Sha256.zeroBytes data.length < 64 := Nat.mod_lt _ (by decide)
  have hlength : ((data ++ [0x80]).length + Sha256.zeroBytes data.length) % 64 = 56 := by
    rw [List.length_append, List.length_singleton]
    exact hz
  have hzeros := (hdata.process 0x80).padZeros hlength hlt hlt
  rw [List.append_assoc, List.singleton_append] at hzeros
  exact ⟨_, rfl, hzeros.lengths⟩

/-! ## The digest -/

theorem hexWord_eq (x : UInt32) : hexWord x = Sha256.hexDigits 8 x.toNat := by
  have hdigits (w n : Nat) (hn : n < 16 ^ (w + 1)) :
      List.replicate (w + 1 - (Nat.toDigits 16 n).length) '0' ++ Nat.toDigits 16 n
        = Sha256.hexDigits (w + 1) n := by
    induction w generalizing n with
    | zero =>
      have hn' : n < 16 := hn
      rw [Nat.toDigits_of_lt_base hn', Sha256.hexDigits, Sha256.hexDigits, Nat.mod_eq_of_lt hn']
      rfl
    | succ w ih =>
      rw [Sha256.hexDigits, ← ih (n / 16) (by rw [Nat.pow_succ] at hn; omega)]
      by_cases hsmall : n < 16
      · rw [Nat.toDigits_of_lt_base hsmall, Nat.div_eq_of_lt hsmall, Nat.mod_eq_of_lt hsmall,
          Nat.toDigits_zero]
        change List.replicate (w + 1) '0' ++ _ = _
        rw [List.replicate_succ']
        rfl
      · rw [Nat.toDigits_of_base_le (by decide) (Nat.not_lt.mp hsmall), List.length_append,
          List.length_singleton, Nat.add_sub_add_right, List.append_assoc]
  exact hdigits 7 x.toNat x.toNat_lt

theorem hex_eq (r : Registers) : hex r = Sha256.hexText (toHash r) := by
  unfold hex Sha256.hexText
  exact List.flatMap_congr fun x _ => hexWord_eq x

/-- The standard's digest of a message of one block, by the code's compression. -/
theorem hexDigest_of_length {message : List UInt8} (h : (Sha256.pad message).length = 64) :
    Sha256.hexDigest message = String.ofList (hex (compress start (Sha256.pad message))) := by
  rw [Sha256.hexDigest, Sha256.hash, Sha256.hashBlocks_singleton h, ← toHash_start,
    ← compress_toHash, hex_eq]

-- the standard's own example, the message "abc"
example : Sha256.hexDigest [0x61, 0x62, 0x63]
    = "ba7816bf8f01cfea414140de5dae2223b00361a396177a9cb410ff61f20015ad" := by
  rw [hexDigest_of_length (by decide +kernel)]
  decide +kernel

/-- The blocks of the message before the last one, compressed. -/
def chain (data : ByteBuffer) : Sha256.Hash :=
  Sha256.hashBlocks Sha256.initial ((Sha256.body data).take ((Sha256.body data).length - 56))

/-- The last block, with the eight bytes that it ends with. -/
def lastBlock (data : ByteBuffer) (length : List UInt8) : List UInt8 :=
  (Sha256.body data).drop ((Sha256.body data).length - 56) ++ length

theorem hashBlocks_body (data : ByteBuffer) {length : List UInt8} (h : length.length = 8) :
    Sha256.hashBlocks Sha256.initial (Sha256.body data ++ length)
      = Sha256.compress (chain data) (lastBlock data length) := by
  have hbody := Sha256.length_body data
  have hsplit := List.take_append_drop ((Sha256.body data).length - 56) (Sha256.body data)
  conv_lhs => rw [← hsplit]
  rw [List.append_assoc, Sha256.hashBlocks_append, Sha256.hashBlocks_singleton]
  · rfl
  · rw [List.length_append, List.length_drop, h]
    omega
  · rw [List.length_take]
    omega

/-- The two messages differ in their last block, always: the digest is the standard's only where
the compression of that block collides. -/
theorem sha256String_eq_iff (data : ByteBuffer) :
    sha256String data = Sha256.hexDigest data ↔
      Sha256.Collision (chain data) (lastBlock data (countedBytes data.length))
        (lastBlock data (Sha256.lengthBytes data.length)) := by
  obtain ⟨s, hstring, hs⟩ := sha256String_state data
  have hcode : toHash s.h
      = Sha256.compress (chain data) (lastBlock data (countedBytes data.length)) := by
    have hhash := hs.hashed []
    rw [List.append_nil, List.append_nil, Sha256.hashBlocks_short hs.collecting.room,
      processedBytes, hashBlocks_body data rfl] at hhash
    exact hhash
  have hstandard : Sha256.hash data
      = Sha256.compress (chain data) (lastBlock data (Sha256.lengthBytes data.length)) :=
    hashBlocks_body data rfl
  rw [hstring, Sha256.hexDigest, hex_eq, hcode, hstandard, Sha256.Collision]
  constructor
  · intro h
    refine ⟨?_, Sha256.hexText_inj (String.ofList_injective h)⟩
    intro hblocks
    exact countedBytes_ne data.length (List.append_cancel_left hblocks)
  · rintro ⟨-, h⟩
    rw [h]

/-- The digest of the empty string. -/
theorem sha256String_nil : ¬ ∀ data, sha256String data = Sha256.hexDigest data := by
  intro h
  have hnil := h []
  rw [hexDigest_of_length (by decide +kernel)] at hnil
  have hne : sha256String [] ≠ String.ofList (hex (compress start (Sha256.pad []))) := by
    decide +kernel
  exact hne hnil

end MBootCore.PackageDigest
