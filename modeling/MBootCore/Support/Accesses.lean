import MBootCore.Support.ByteStore

/-!
# Accesses — which bytes of a buffer a computation takes

A computation over buffers, written with the accesses it makes. `value` is what
it computes and `log` what it takes of the buffers on the way; a computation is
safe if each access lies inside of the buffer it is made to.

Both parts are worked out by `simp`: `value` commutes with the sequencing of
computations, and a sequence is safe when its parts are.
-/

namespace MBootCore

open LittleEndian

/-- Bytes taken of a buffer with `size` bytes. -/
structure Access where
  size : Nat
  start : Nat
  length : Nat
  deriving DecidableEq, Repr

def Access.Inside (a : Access) : Prop := a.start + a.length ≤ a.size

instance (a : Access) : Decidable a.Inside := inferInstanceAs (Decidable (_ ≤ _))

structure Logged (α : Type) where
  value : α
  log : List Access := []
  deriving Repr

namespace Logged

variable {α β : Type}

instance : Monad Logged where
  pure a := { value := a }
  bind x f := { value := (f x.value).value, log := x.log ++ (f x.value).log }

/-- Every access lies inside of its buffer. -/
def Safe (x : Logged α) : Prop := ∀ a ∈ x.log, a.Inside

instance (x : Logged α) : Decidable x.Safe := inferInstanceAs (Decidable (∀ a ∈ x.log, _))

@[simp] theorem value_pure (a : α) : (pure a : Logged α).value = a := rfl

@[simp] theorem value_bind (x : Logged α) (f : α → Logged β) :
    (x >>= f).value = (f x.value).value := rfl

@[simp] theorem value_map (f : α → β) (x : Logged α) : (f <$> x).value = f x.value := rfl

@[simp] theorem safe_pure (a : α) : (pure a : Logged α).Safe := by
  intro access haccess
  cases haccess

@[simp] theorem safe_bind (x : Logged α) (f : α → Logged β) :
    (x >>= f).Safe ↔ x.Safe ∧ (f x.value).Safe :=
  List.forall_mem_append

@[simp] theorem safe_map (f : α → β) (x : Logged α) : (f <$> x).Safe ↔ x.Safe := by
  show (∀ a ∈ x.log ++ [], a.Inside) ↔ _
  rw [List.append_nil, Safe]

theorem value_ite {c : Prop} [Decidable c] (x y : Logged α) :
    (if c then x else y).value = if c then x.value else y.value := by
  split <;> rfl

theorem safe_ite {c : Prop} [Decidable c] (x y : Logged α) :
    (if c then x else y).Safe ↔ (c → x.Safe) ∧ (¬ c → y.Safe) := by
  split <;> simp_all

/-- A safe computation of a value with the property `P`. -/
structure Meets (x : Logged α) (P : α → Prop) : Prop where
  safe : x.Safe
  value : P x.value

theorem Meets.pure {P : α → Prop} {a : α} (h : P a) : (pure a : Logged α).Meets P :=
  ⟨safe_pure a, h⟩

theorem Meets.bind {P : β → Prop} {x : Logged α} {f : α → Logged β} (hx : x.Safe)
    (h : (f x.value).Meets P) : (x >>= f).Meets P :=
  ⟨(safe_bind x f).mpr ⟨hx, h.safe⟩, h.value⟩

theorem Meets.mono {P Q : α → Prop} {x : Logged α} (h : x.Meets P) (hPQ : ∀ a, P a → Q a) :
    x.Meets Q :=
  ⟨h.safe, hPQ _ h.value⟩

/-! ## Lists of computations -/

/-- One computation for each element, in order. -/
def each (f : α → Logged β) : List α → Logged (List β)
  | [] => pure []
  | a :: as => do
    let b ← f a
    let bs ← each f as
    pure (b :: bs)

@[simp] theorem value_each (f : α → Logged β) (as : List α) :
    (each f as).value = as.map fun a => (f a).value := by
  induction as with
  | nil => rfl
  | cons a as ih => simp [each, ih]

@[simp] theorem safe_each (f : α → Logged β) (as : List α) :
    (each f as).Safe ↔ ∀ a ∈ as, (f a).Safe := by
  induction as with
  | nil => simp [each]
  | cons a as ih => simp [each, ih]

/-! ## Reads -/

variable (data : List UInt8)

/-- The bytes from `start` on are taken, and `value` is made of them. -/
def taking (start length : Nat) (value : α) : Logged α :=
  { value, log := [⟨data.length, start, length⟩] }

@[simp] theorem value_taking (start length : Nat) (value : α) :
    (taking data start length value).value = value := rfl

@[simp] theorem safe_taking (start length : Nat) (value : α) :
    (taking data start length value).Safe ↔ start + length ≤ data.length := by
  simp [taking, Safe, Access.Inside]

def byteAt (i : Nat) : Logged UInt8 := taking data i 1 (data.getD i 0)

def word16 (off : Nat) : Logged UInt16 := taking data off 2 (readLE16 data off)

def word32 (off : Nat) : Logged UInt32 := taking data off 4 (readLE32 data off)

def word64 (off : Nat) : Logged UInt64 := taking data off 8 (readLE64 data off)

/-- `n` bytes one by one. -/
def array (n off : Nat) : Logged (Vector UInt8 n) := taking data off n (readArray n data off)

/-- The bytes between two iterators. -/
def range (start length : Nat) : Logged (List UInt8) :=
  taking data start length ((data.drop start).take length)

@[simp] theorem value_byteAt (i : Nat) : (byteAt data i).value = data.getD i 0 := rfl

@[simp] theorem value_word16 (off : Nat) : (word16 data off).value = readLE16 data off := rfl

@[simp] theorem value_word32 (off : Nat) : (word32 data off).value = readLE32 data off := rfl

@[simp] theorem value_word64 (off : Nat) : (word64 data off).value = readLE64 data off := rfl

@[simp] theorem value_array (n off : Nat) : (array data n off).value = readArray n data off := rfl

@[simp] theorem value_range (start length : Nat) :
    (range data start length).value = (data.drop start).take length := rfl

@[simp] theorem safe_byteAt (i : Nat) :
    (byteAt data i).Safe ↔ i < data.length := safe_taking _ _ _ _

@[simp] theorem safe_word16 (off : Nat) : (word16 data off).Safe ↔ off + 2 ≤ data.length :=
  safe_taking _ _ _ _

@[simp] theorem safe_word32 (off : Nat) : (word32 data off).Safe ↔ off + 4 ≤ data.length :=
  safe_taking _ _ _ _

@[simp] theorem safe_word64 (off : Nat) : (word64 data off).Safe ↔ off + 8 ≤ data.length :=
  safe_taking _ _ _ _

@[simp] theorem safe_array (n off : Nat) : (array data n off).Safe ↔ off + n ≤ data.length :=
  safe_taking _ _ _ _

@[simp] theorem safe_range (start length : Nat) :
    (range data start length).Safe ↔ start + length ≤ data.length :=
  safe_taking _ _ _ _

end Logged

end MBootCore
