import Mathlib

namespace Hbird

/-- A pipe that holds at most `capacity` bytes, and whether its two ends are open. -/
structure Pipe (capacity : Nat) where
  content : List UInt8
  fits : content.length ≤ capacity
  writer : Bool
  reader : Bool
  deriving DecidableEq, Repr

namespace Pipe

variable {capacity : Nat} {p q : Pipe capacity} {b : UInt8}

def opened (capacity : Nat) : Pipe capacity := ⟨[], Nat.zero_le _, true, true⟩

def Full (p : Pipe capacity) : Prop := p.content.length = capacity

instance : Decidable p.Full := inferInstanceAs (Decidable (p.content.length = capacity))

/-- A reader has seen everything. -/
def AtEnd (p : Pipe capacity) : Prop := p.content = [] ∧ p.writer = false

instance : Decidable p.AtEnd := inferInstanceAs (Decidable (_ ∧ _))

/-- Write one byte, if there is room for it. -/
def put (b : UInt8) (p : Pipe capacity) : Option (Pipe capacity) :=
  if h : p.content.length < capacity then
    some { p with content := p.content ++ [b], fits := by simpa using h }
  else none

/-- Read one byte, if there is one. -/
def take (p : Pipe capacity) : Option (UInt8 × Pipe capacity) :=
  match h : p.content with
  | [] => none
  | b :: rest => some (b, { p with content := rest, fits := by have := p.fits; simp [h] at this; omega })

def closeWriter (p : Pipe capacity) : Pipe capacity := { p with writer := false }

def closeReader (p : Pipe capacity) : Pipe capacity := { p with reader := false }

@[simp] theorem closeWriter_content : p.closeWriter.content = p.content := rfl

@[simp] theorem closeWriter_writer : p.closeWriter.writer = false := rfl

@[simp] theorem closeWriter_reader : p.closeWriter.reader = p.reader := rfl

@[simp] theorem closeReader_content : p.closeReader.content = p.content := rfl

@[simp] theorem closeReader_writer : p.closeReader.writer = p.writer := rfl

@[simp] theorem closeReader_reader : p.closeReader.reader = false := rfl

theorem put_eq_some : p.put b = some q ↔ p.content.length < capacity ∧
    q.content = p.content ++ [b] ∧ q.writer = p.writer ∧ q.reader = p.reader := by
  unfold put
  by_cases h : p.content.length < capacity
  · rw [dif_pos h]
    obtain ⟨content, fits, writer, reader⟩ := q
    simp only [Option.some.injEq, mk.injEq, h, true_and]
    tauto
  · simp [h]

theorem put_eq_none : p.put b = none ↔ p.Full := by
  unfold put Full
  have hfits := p.fits
  by_cases h : p.content.length < capacity
  · simp [h, h.ne]
  · simp only [h, dite_false, true_iff]
    omega

theorem take_eq_some : p.take = some (b, q) ↔
    p.content = b :: q.content ∧ q.writer = p.writer ∧ q.reader = p.reader := by
  obtain ⟨content, fits, writer, reader⟩ := p
  obtain ⟨content', fits', writer', reader'⟩ := q
  cases content with
  | nil => simp [take]
  | cons c rest =>
    simp only [take, Option.some.injEq, Prod.mk.injEq, mk.injEq, List.cons.injEq]
    tauto

theorem take_eq_none : p.take = none ↔ p.content = [] := by
  obtain ⟨content, fits, writer, reader⟩ := p
  cases content <;> simp [take]

end Pipe

end Hbird
