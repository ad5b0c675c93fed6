/-! # Bytes

Byte strings as lists, and the three operations the project needs on them: overwriting a part,
and the little-endian and big-endian forms of 32-bit words.
-/

namespace ShaderBinding

abbrev Bytes := List UInt8

namespace Bytes

def zeros (n : Nat) : Bytes := List.replicate n 0

def overwrite (bytes : Bytes) (offset : Nat) (data : Bytes) : Bytes :=
  bytes.take offset ++ data ++ bytes.drop (offset + data.length)

theorem length_overwrite {bytes data : Bytes} {offset : Nat}
    (h : offset + data.length ≤ bytes.length) :
    (bytes.overwrite offset data).length = bytes.length := by
  simp [overwrite]; omega

theorem getElem?_overwrite {bytes data : Bytes} {offset : Nat}
    (h : offset + data.length ≤ bytes.length) (i : Nat) :
    (bytes.overwrite offset data)[i]? =
      if offset ≤ i ∧ i < offset + data.length then data[i - offset]? else bytes[i]? := by
  have htake : (bytes.take offset).length = offset := List.length_take_of_le (by omega)
  rw [overwrite, List.append_assoc, List.getElem?_append, htake]
  by_cases hbefore : i < offset
  · rw [if_pos hbefore, if_neg (by omega), List.getElem?_take_of_lt hbefore]
  rw [if_neg hbefore, List.getElem?_append]
  by_cases hinside : i - offset < data.length
  · rw [if_pos hinside, if_pos (by omega)]
  · rw [if_neg hinside, if_neg (by omega), List.getElem?_drop]
    congr 1
    omega

theorem overwrite_append {a b data : Bytes} {offset : Nat} (h : offset + data.length ≤ a.length) :
    (a ++ b).overwrite offset data = a.overwrite offset data ++ b := by
  have hoffset : offset ≤ a.length := by omega
  simp [overwrite, List.take_append_of_le_length hoffset, List.drop_append_of_le_length h]

/-- The word whose bytes, least significant first, are the arguments. -/
def word (a b c d : UInt8) : UInt32 :=
  a.toUInt32 ||| (b.toUInt32 <<< 8) ||| (c.toUInt32 <<< 16) ||| (d.toUInt32 <<< 24)

def ofWord (w : UInt32) : Bytes :=
  [w.toUInt8, (w >>> 8).toUInt8, (w >>> 16).toUInt8, (w >>> 24).toUInt8]

theorem or_shiftLeft_of_lt {low high i : Nat} (h : low < 1 <<< i) :
    low ||| high <<< i = low + high <<< i := by
  rw [Nat.one_shiftLeft] at h
  rw [Nat.or_comm, ← Nat.shiftLeft_add_eq_or_of_lt h, Nat.add_comm]

theorem toNat_word (a b c d : UInt8) :
    (word a b c d).toNat = a.toNat + b.toNat <<< 8 + c.toNat <<< 16 + d.toNat <<< 24 := by
  have ha : a.toNat < 1 <<< 8 := a.toNat_lt
  have hb := b.toNat_lt
  have hc := c.toNat_lt
  have hd := d.toNat_lt
  have hb' : b.toNat <<< 8 % 2 ^ 32 = b.toNat <<< 8 := by omega
  have hc' : c.toNat <<< 16 % 2 ^ 32 = c.toNat <<< 16 := by omega
  have hd' : d.toNat <<< 24 % 2 ^ 32 = d.toNat <<< 24 := by omega
  simp only [word, UInt32.toNat_or, UInt32.toNat_shiftLeft, UInt8.toNat_toUInt32,
    UInt32.reduceToNat, Nat.reduceMod, hb', hc', hd']
  -- Every byte lies above the bits of those before it, so joining it to them adds it.
  have hab : a.toNat + b.toNat <<< 8 < 1 <<< 16 := by omega
  have habc : a.toNat + b.toNat <<< 8 + c.toNat <<< 16 < 1 <<< 24 := by omega
  rw [or_shiftLeft_of_lt ha, or_shiftLeft_of_lt hab, or_shiftLeft_of_lt habc]

@[simp]
theorem ofWord_word (a b c d : UInt8) : ofWord (word a b c d) = [a, b, c, d] := by
  have ha := a.toNat_lt
  have hb := b.toNat_lt
  have hc := c.toNat_lt
  have hd := d.toNat_lt
  simp only [ofWord, List.cons.injEq, and_true, ← UInt8.toNat_inj, UInt32.toNat_toUInt8,
    UInt32.toNat_shiftRight, UInt32.reduceToNat, Nat.reduceMod, toNat_word]
  omega

theorem word_bytes (w : UInt32) :
    word w.toUInt8 (w >>> 8).toUInt8 (w >>> 16).toUInt8 (w >>> 24).toUInt8 = w := by
  have hw := w.toNat_lt
  apply UInt32.toNat_inj.mp
  simp only [toNat_word, UInt32.toNat_toUInt8, UInt32.toNat_shiftRight, UInt32.reduceToNat,
    Nat.reduceMod]
  omega

theorem word_eq_iff {a b c d : UInt8} {w : UInt32} :
    word a b c d = w ↔ [a, b, c, d] = ofWord w := by
  constructor
  · rintro rfl
    exact (ofWord_word a b c d).symm
  · intro h
    simp only [ofWord, List.cons.injEq, and_true] at h
    obtain ⟨rfl, rfl, rfl, rfl⟩ := h
    exact word_bytes w

def toWords : Bytes → List UInt32
  | a :: b :: c :: d :: rest => word a b c d :: toWords rest
  | _ => []

def toWordsBigEndian : Bytes → List UInt32
  | a :: b :: c :: d :: rest => word d c b a :: toWordsBigEndian rest
  | _ => []

def ofWords (words : List UInt32) : Bytes := words.flatMap ofWord

/-- The bytes of words before the first zero byte. -/
def ofText : List UInt32 → Bytes
  | [] => []
  | word :: rest =>
    let bytes := ofWord word
    if bytes.all (· ≠ 0) then bytes ++ ofText rest else bytes.takeWhile (· ≠ 0)

def ofWordsBigEndian (words : List UInt32) : Bytes :=
  words.flatMap fun w => (ofWord w).reverse

end Bytes

end ShaderBinding
