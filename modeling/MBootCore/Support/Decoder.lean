import MBootCore.Support.LittleEndian

/-!
# Decoder — records read from the front of a byte sequence

A decoder takes a value from the front of a sequence and leaves the rest, or fails.
`Reads d code a` says that it takes exactly `code`, as `a`, whatever follows; `Steady d` that
what follows a value has no say in it. Together they give the law of truncated records: no
strict prefix of `code` is read as anything (`Reads.strict_extends`).
-/

namespace MBootCore

abbrev Decoder (β α : Type) : Type := StateT (List β) Option α

namespace Decoder

variable {β α γ : Type}

/-! ## What a decoder reads -/

def Reads (d : Decoder β α) (code : List β) (a : α) : Prop :=
  ∀ rest, d.run (code ++ rest) = some (a, rest)

theorem Reads.pure (a : α) : Reads (Pure.pure a : Decoder β α) [] a := by
  intro rest
  rfl

theorem Reads.bind {d : Decoder β α} {f : α → Decoder β γ} {code code' : List β} {a : α} {c : γ}
    (hd : Reads d code a) (hf : Reads (f a) code' c) : Reads (d >>= f) (code ++ code') c := by
  intro rest
  rw [StateT.run_bind, List.append_assoc, hd]
  exact hf rest

theorem reads_guard {p : Prop} [Decidable p] (hp : p) :
    Reads (guard p : Decoder β Unit) [] () := by
  rw [guard, if_pos hp]
  exact Reads.pure ()

/-- The last step makes the value of what was read. -/
theorem Reads.bind_pure {d : Decoder β α} {code : List β} {a : α} (h : Reads d code a)
    (f : α → γ) : Reads (d >>= fun a => Pure.pure (f a)) code (f a) := by
  have hbind := h.bind (f := fun a => Pure.pure (f a)) (Reads.pure (f a))
  rw [List.append_nil] at hbind
  exact hbind

/-! ## What follows has no say -/

def Steady (d : Decoder β α) : Prop :=
  ∀ xs a rest, d.run xs = some (a, rest) → ∀ ys, d.run (xs ++ ys) = some (a, rest ++ ys)

theorem Steady.pure (a : α) : Steady (Pure.pure a : Decoder β α) := by
  intro xs a' rest h ys
  cases h
  rfl

theorem Steady.failure : Steady (failure : Decoder β α) := by
  intro xs a rest h
  cases h

theorem Steady.bind {d : Decoder β α} {f : α → Decoder β γ} (hd : Steady d)
    (hf : ∀ a, Steady (f a)) : Steady (d >>= f) := by
  intro xs c rest h ys
  rw [StateT.run_bind] at h ⊢
  cases hrun : d.run xs with
  | none =>
    rw [hrun] at h
    cases h
  | some taken =>
    rw [hrun] at h
    rw [hd xs taken.1 taken.2 hrun ys]
    exact hf taken.1 taken.2 c rest h ys

theorem steady_guard (p : Prop) [Decidable p] : Steady (guard p : Decoder β Unit) := by
  rw [guard]
  split
  · exact Steady.pure _
  · exact Steady.failure

/-- A value whose code is cut short is not read at all. -/
theorem Reads.strict_extends {d : Decoder β α} {code cut : List β} {a : α} (h : Reads d code a)
    (hd : Steady d) (hcut : cut <+: code) (hne : cut ≠ code) : d.run cut = none := by
  obtain ⟨missing, rfl⟩ := hcut
  cases hrun : d.run cut with
  | none => rfl
  | some taken =>
    have hall := hd cut taken.1 taken.2 hrun missing
    have hcode := h []
    rw [List.append_nil, hall] at hcode
    -- the value would leave the missing part behind, but the whole code leaves nothing
    have hnil : taken.2 ++ missing = [] := (Prod.mk.inj (Option.some.inj hcode)).2
    rw [(List.append_eq_nil_iff.mp hnil).2, List.append_nil] at hne
    exact absurd rfl hne

/-! ## Runs of a given length, and words -/

def take (n : Nat) : Decoder β (List β) := fun xs =>
  if xs.length < n then none else some (xs.take n, xs.drop n)

theorem reads_take (code : List β) : Reads (take code.length) code code := by
  intro rest
  change ite _ _ _ = _
  rw [if_neg (by rw [List.length_append]; omega), List.take_left, List.drop_left]

theorem steady_take (n : Nat) : Steady (take n : Decoder β (List β)) := by
  intro xs a rest h ys
  change ite _ _ _ = _ at h
  change ite _ _ _ = _
  split at h
  · cases h
  · rename_i hlength
    cases h
    rw [if_neg (by rw [List.length_append]; omega), List.take_append_of_le_length (by omega),
      List.drop_append_of_le_length (by omega)]

def word32 : Decoder UInt8 UInt32
  | b0 :: b1 :: b2 :: b3 :: rest => some (LittleEndian.decode32 b0 b1 b2 b3, rest)
  | _ => none

theorem reads_word32 (v : UInt32) : Reads word32 (LittleEndian.encode32 v) v := by
  intro rest
  change some (LittleEndian.decode32 v.toUInt8 (v >>> 8).toUInt8 (v >>> 16).toUInt8
    (v >>> 24).toUInt8, rest) = _
  rw [LittleEndian.decode32_encode32]

theorem steady_word32 : Steady word32 := by
  intro xs a rest h ys
  match xs with
  | b0 :: b1 :: b2 :: b3 :: tail =>
    cases h
    rfl
  | [] | [_] | [_, _] | [_, _, _] => cases h

end Decoder

end MBootCore
