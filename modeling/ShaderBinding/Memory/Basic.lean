import ShaderBinding.Bytes
import ShaderBinding.Fault

/-! # Memory objects

A memory object starts out zeroed. It stores the bytes up to the last one written; all bytes
after them are zero, so that a large object costs nothing until it is used.
-/

namespace ShaderBinding

structure Memory where
  length : Nat
  written : Bytes
  written_le : written.length ≤ length
  deriving DecidableEq, Repr

namespace Memory

/-- A zeroed object. One of half the address space or more is not representable. -/
def zeroed (length : Nat) : Checked Memory :=
  if length < 0x8000000000000000 then .ok ⟨length, [], by simp⟩ else .error .capacityOverflow

def ofBytes (bytes : Bytes) : Memory := ⟨bytes.length, bytes, Nat.le_refl _⟩

def bytes (m : Memory) : Bytes := m.written ++ Bytes.zeros (m.length - m.written.length)

def extended (m : Memory) (n : Nat) : Bytes := m.written ++ Bytes.zeros (n - m.written.length)

/-- Overwrite a range; one that is not inside the object leaves it as it is. -/
def write (m : Memory) (offset : Nat) (data : Bytes) : Memory :=
  if h : offset + data.length ≤ m.length then
    ⟨m.length, (m.extended (offset + data.length)).overwrite offset data, by
      have := m.written_le
      simp only [Bytes.overwrite, extended, Bytes.zeros, List.length_append, List.length_take,
        List.length_drop, List.length_replicate]
      omega⟩
  else m

@[simp]
theorem length_bytes (m : Memory) : m.bytes.length = m.length := by
  have := m.written_le
  simp [bytes, Bytes.zeros]; omega

@[simp]
theorem bytes_ofBytes (data : Bytes) : (ofBytes data).bytes = data := by
  simp [bytes, ofBytes, Bytes.zeros]

theorem bytes_zeroed {n : Nat} {m : Memory} (h : zeroed n = .ok m) : m.bytes = Bytes.zeros n := by
  unfold zeroed at h
  split at h
  · cases h; simp [bytes]
  · cases h

@[simp]
theorem length_write (m : Memory) (offset : Nat) (data : Bytes) :
    (m.write offset data).length = m.length := by
  unfold write; split <;> rfl

theorem bytes_eq_extended {m : Memory} {n : Nat} (h : n ≤ m.length) :
    m.bytes = m.extended n ++ Bytes.zeros (m.length - (m.extended n).length) := by
  have hw := m.written_le
  simp only [bytes, extended, Bytes.zeros, List.append_assoc, List.length_append,
    List.length_replicate, List.replicate_append_replicate]
  congr 2
  omega

theorem bytes_write {m : Memory} {offset : Nat} {data : Bytes}
    (h : offset + data.length ≤ m.length) :
    (m.write offset data).bytes = m.bytes.overwrite offset data := by
  have hstop : offset + data.length ≤ (m.extended (offset + data.length)).length := by
    simp [extended, Bytes.zeros]; omega
  rw [bytes_eq_extended h, Bytes.overwrite_append hstop]
  simp only [write, h, dif_pos, bytes, Bytes.length_overwrite hstop]

end Memory

end ShaderBinding
