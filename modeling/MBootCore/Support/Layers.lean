import MBootCore.Support.ByteStore

/-!
# Layers — parts of a buffer written one after another

A buffer is written part by part, and a later part hides what an earlier one
wrote. Where all the parts that cover an index agree on its byte the order does
not matter (`paint_agree`).
-/

namespace MBootCore

open LittleEndian

structure Layer where
  offset : Nat
  bytes : List UInt8
  deriving DecidableEq, Repr

namespace Layer

def Covers (l : Layer) (i : Nat) : Prop := l.offset ≤ i ∧ i < l.offset + l.bytes.length

instance (l : Layer) (i : Nat) : Decidable (l.Covers i) := inferInstanceAs (Decidable (_ ∧ _))

/-- The layer lies inside a buffer of that length. -/
def Fits (l : Layer) (size : Nat) : Prop := l.offset + l.bytes.length ≤ size

def write (image : List UInt8) (l : Layer) : List UInt8 := patch image l.offset l.bytes

def paint (layers : List Layer) (image : List UInt8) : List UInt8 := layers.foldl write image

variable {l : Layer} {layers : List Layer} {image : List UInt8} {i : Nat}

@[simp] theorem paint_nil (image : List UInt8) : paint [] image = image := rfl

@[simp] theorem paint_cons (l : Layer) (layers : List Layer) (image : List UInt8) :
    paint (l :: layers) image = paint layers (write image l) := rfl

theorem paint_append (layers more : List Layer) (image : List UInt8) :
    paint (layers ++ more) image = paint more (paint layers image) := List.foldl_append

theorem length_write (h : l.Fits image.length) : (write image l).length = image.length := by
  rw [Fits] at h
  simp only [write, patch, List.length_append, List.length_take, List.length_drop]
  omega

theorem write_inside (h : l.Fits image.length) (hi : l.Covers i) :
    (write image l)[i]? = l.bytes[i - l.offset]? := by
  rw [Fits] at h
  obtain ⟨hlow, hhigh⟩ := hi
  have htake : (image.take l.offset).length = l.offset := by
    rw [List.length_take]
    omega
  rw [write, patch, List.append_assoc, List.getElem?_append_right (by omega), htake,
    List.getElem?_append_left (by omega)]

theorem write_outside (h : l.Fits image.length) (hi : ¬ l.Covers i) :
    (write image l)[i]? = image[i]? := by
  rw [Fits] at h
  rw [Covers] at hi
  have htake : (image.take l.offset).length = l.offset := by
    rw [List.length_take]
    omega
  rw [write, patch, List.append_assoc]
  by_cases hlow : i < l.offset
  · rw [List.getElem?_append_left (by omega), List.getElem?_take_of_lt hlow]
  · rw [List.getElem?_append_right (by omega), htake, List.getElem?_append_right (by omega),
      List.getElem?_drop]
    congr 1
    omega

theorem length_paint (h : ∀ l ∈ layers, l.Fits image.length) :
    (paint layers image).length = image.length := by
  induction layers generalizing image with
  | nil => rfl
  | cons l layers ih =>
    obtain ⟨hl, hrest⟩ := List.forall_mem_cons.mp h
    have hlength := length_write hl
    rw [paint_cons, ih (by rwa [hlength]), hlength]

/-- Layers that agree on a byte leave it there, in whatever order. -/
theorem paint_agree {b : UInt8} (h : ∀ l ∈ layers, l.Fits image.length)
    (hagree : ∀ l ∈ layers, l.Covers i → l.bytes[i - l.offset]? = some b)
    (hsome : image[i]? = some b ∨ ∃ l ∈ layers, l.Covers i) :
    (paint layers image)[i]? = some b := by
  induction layers generalizing image with
  | nil =>
    rcases hsome with hb | ⟨l, hl, -⟩
    · exact hb
    · cases hl
  | cons l layers ih =>
    obtain ⟨hl, hrest⟩ := List.forall_mem_cons.mp h
    obtain ⟨hlb, hrestb⟩ := List.forall_mem_cons.mp hagree
    have hlength := length_write hl
    rw [paint_cons]
    refine ih (by rwa [hlength]) hrestb ?_
    by_cases hcovers : l.Covers i
    · exact .inl ((write_inside hl hcovers).trans (hlb hcovers))
    · rw [write_outside hl hcovers]
      refine hsome.imp_right ?_
      rintro ⟨other, hother, hothercovers⟩
      rcases List.mem_cons.mp hother with rfl | hother
      · exact absurd hothercovers hcovers
      · exact ⟨other, hother, hothercovers⟩

end Layer

end MBootCore
