import Mathlib.Tactic.Tauto
import ShaderBinding.Spirv.Binary

/-! # Byte orders of a binary

Writing words as bytes and cutting bytes into words undo each other in either byte order. So a
binary reads as the words it was written with, whichever order that was, and nothing else can be
read. The first word alone tells the order of all words after it.
-/

namespace ShaderBinding

namespace Bytes

variable {bytes : Bytes}

@[simp]
theorem ofWords_cons (w : UInt32) (rest : List UInt32) :
    ofWords (w :: rest) = ofWord w ++ ofWords rest := rfl

@[simp]
theorem ofWordsBigEndian_cons (w : UInt32) (rest : List UInt32) :
    ofWordsBigEndian (w :: rest) = (ofWord w).reverse ++ ofWordsBigEndian rest := rfl

theorem exists_word_of_dvd (h : 4 ∣ bytes.length) (hne : bytes ≠ []) :
    ∃ a b c d rest, bytes = a :: b :: c :: d :: rest := by
  match bytes with
  | [] => exact absurd rfl hne
  | [_] | [_, _] | [_, _, _] => simp at h
  | a :: b :: c :: d :: rest => exact ⟨a, b, c, d, rest, rfl⟩

theorem dvd_length_ofWords (words : List UInt32) : 4 ∣ (ofWords words).length := by
  induction words with
  | nil => exact Nat.dvd_zero 4
  | cons w rest ih =>
    rw [ofWords_cons, List.length_append]
    exact Nat.dvd_add (Nat.dvd_refl 4) ih

theorem ofWords_ne_nil {words : List UInt32} {w : UInt32} (h : words.head? = some w) :
    ofWords words ≠ [] := by
  obtain ⟨rest, rfl⟩ := List.head?_eq_some_iff.mp h
  exact List.cons_ne_nil _ _

theorem toWords_ofWords (words : List UInt32) : toWords (ofWords words) = words := by
  induction words with
  | nil => rfl
  | cons w rest ih =>
    change word .. :: toWords (ofWords rest) = _
    rw [word_bytes, ih]

theorem ofWords_toWords (h : 4 ∣ bytes.length) : ofWords (toWords bytes) = bytes := by
  induction bytes using toWords.induct with
  | case1 a b c d rest ih =>
    have hrest : 4 ∣ rest.length := by
      simp only [List.length_cons] at h
      omega
    rw [toWords, ofWords_cons, ofWord_word, ih hrest]
    rfl
  | case2 bytes hshort =>
    by_cases hne : bytes = []
    · rw [hne]
      rfl
    · obtain ⟨a, b, c, d, rest, hbytes⟩ := exists_word_of_dvd h hne
      exact absurd hbytes (hshort a b c d rest)

def swap (w : UInt32) : UInt32 :=
  word (w >>> 24).toUInt8 (w >>> 16).toUInt8 (w >>> 8).toUInt8 w.toUInt8

@[simp]
theorem ofWord_swap (w : UInt32) : ofWord (swap w) = (ofWord w).reverse := ofWord_word ..

theorem eq_of_ofWord {v w : UInt32} (h : ofWord v = ofWord w) : v = w := by
  rw [← word_bytes v]
  exact word_eq_iff.mpr h

theorem swap_word (a b c d : UInt8) : swap (word a b c d) = word d c b a := by
  apply eq_of_ofWord
  simp

@[simp]
theorem swap_swap (w : UInt32) : swap (swap w) = w := by
  apply eq_of_ofWord
  simp

theorem ofWordsBigEndian_eq (words : List UInt32) :
    ofWordsBigEndian words = ofWords (words.map swap) := by
  induction words with
  | nil => rfl
  | cons w rest ih => simp [ih]

theorem toWordsBigEndian_eq (bytes : Bytes) :
    toWordsBigEndian bytes = (toWords bytes).map swap := by
  induction bytes using toWords.induct with
  | case1 a b c d rest ih => rw [toWords, toWordsBigEndian, List.map_cons, swap_word, ih]
  | case2 bytes hshort =>
    unfold toWords toWordsBigEndian
    split
    · exact absurd rfl (hshort _ _ _ _ _)
    · rfl

theorem map_swap_map_swap (words : List UInt32) : (words.map swap).map swap = words := by
  simp [Function.comp_def]

end Bytes

namespace Spirv

open Bytes

variable {bytes : Bytes} {words : List UInt32}

theorem readWords_of_invalid_length (h : bytes = [] ∨ ¬ 4 ∣ bytes.length) :
    readWords bytes = .error (.invalidLength bytes.length) := by
  have hinvalid : (bytes.isEmpty || bytes.length % 4 ≠ 0) = true := by
    rcases h with rfl | h
    · rfl
    · simp only [Bool.or_eq_true, decide_eq_true_eq]
      exact Or.inr (mt Nat.dvd_of_mod_eq_zero h)
  exact if_pos hinvalid

/-- No word is the magic number in both orders. -/
theorem swap_magic_ne : swap magic ≠ magic := by decide

theorem readWords_of_dvd (h : 4 ∣ bytes.length) (hne : bytes ≠ []) :
    ∃ first, bytes.take 4 = ofWord first ∧ (toWords bytes).head? = some first ∧
      readWords bytes =
        if first = magic then .ok (toWords bytes)
        else if first = swap magic then .ok ((toWords bytes).map swap)
        else .error (.invalidMagic first) := by
  obtain ⟨a, b, c, d, rest, rfl⟩ := exists_word_of_dvd h hne
  refine ⟨word a b c d, (ofWord_word a b c d).symm, rfl, ?_⟩
  rw [← toWordsBigEndian_eq]
  refine if_neg ?_
  simp only [List.isEmpty_cons, Bool.false_or, decide_eq_true_eq, not_not]
  exact Nat.mod_eq_zero_of_dvd h

theorem readWords_ofWords (h : words.head? = some magic) :
    readWords (ofWords words) = .ok words := by
  obtain ⟨first, -, hfirst, hread⟩ :=
    readWords_of_dvd (dvd_length_ofWords words) (ofWords_ne_nil h)
  rw [toWords_ofWords] at hfirst hread
  obtain rfl := Option.some_inj.mp (hfirst.symm.trans h)
  rw [hread, if_pos rfl]

theorem readWords_ofWordsBigEndian (h : words.head? = some magic) :
    readWords (ofWordsBigEndian words) = .ok words := by
  rw [ofWordsBigEndian_eq]
  have hswapped : (words.map swap).head? = some (swap magic) := by simp [h]
  obtain ⟨first, -, hfirst, hread⟩ :=
    readWords_of_dvd (dvd_length_ofWords _) (ofWords_ne_nil hswapped)
  rw [toWords_ofWords] at hfirst hread
  obtain rfl := Option.some_inj.mp (hfirst.symm.trans hswapped)
  rw [hread, if_neg swap_magic_ne, if_pos rfl, map_swap_map_swap]

/-- What is read starts with the magic number, and writing it gives the bytes back. -/
theorem eq_ofWords_of_readWords (h : readWords bytes = .ok words) :
    words.head? = some magic ∧ (bytes = ofWords words ∨ bytes = ofWordsBigEndian words) := by
  by_cases hlength : bytes = [] ∨ ¬ 4 ∣ bytes.length
  · rw [readWords_of_invalid_length hlength] at h
    cases h
  · obtain ⟨hne, hdvd⟩ : bytes ≠ [] ∧ 4 ∣ bytes.length := by simpa using hlength
    obtain ⟨first, -, hfirst, hread⟩ := readWords_of_dvd hdvd hne
    rw [hread] at h
    split at h
    · rename_i hmagic
      cases h
      exact ⟨hmagic ▸ hfirst, Or.inl (ofWords_toWords hdvd).symm⟩
    · split at h
      · rename_i hmagic
        cases h
        refine ⟨by simp [hfirst, hmagic], Or.inr ?_⟩
        rw [ofWordsBigEndian_eq, map_swap_map_swap, ofWords_toWords hdvd]
      · cases h

theorem exists_readWords_iff : (∃ words, readWords bytes = .ok words) ↔
    bytes ≠ [] ∧ 4 ∣ bytes.length ∧
      (bytes.take 4 = ofWord magic ∨ bytes.take 4 = (ofWord magic).reverse) := by
  constructor
  · rintro ⟨words, h⟩
    obtain ⟨hmagic, hbytes⟩ := eq_ofWords_of_readWords h
    obtain ⟨rest, rfl⟩ := List.head?_eq_some_iff.mp hmagic
    rcases hbytes with rfl | rfl
    · exact ⟨ofWords_ne_nil hmagic, dvd_length_ofWords _, Or.inl rfl⟩
    · rw [ofWordsBigEndian_eq]
      exact ⟨List.cons_ne_nil _ _, dvd_length_ofWords _, Or.inr rfl⟩
  · rintro ⟨hne, hdvd, htake⟩
    obtain ⟨first, hfirst, -, hread⟩ := readWords_of_dvd hdvd hne
    rw [hfirst, ← ofWord_swap] at htake
    rw [hread]
    rcases htake with h | h
    · exact ⟨_, if_pos (eq_of_ofWord h)⟩
    · obtain rfl := eq_of_ofWord h
      rw [if_neg swap_magic_ne, if_pos rfl]
      exact ⟨_, rfl⟩

theorem error_of_readWords {error : ShaderError} (h : readWords bytes = .error error) :
    if bytes ≠ [] ∧ 4 ∣ bytes.length then
      ∃ first, bytes.take 4 = ofWord first ∧ error = .invalidMagic first
    else error = .invalidLength bytes.length := by
  split
  · rename_i hlength
    obtain ⟨first, hfirst, -, hread⟩ := readWords_of_dvd hlength.2 hlength.1
    rw [hread] at h
    split at h
    · cases h
    · split at h
      · cases h
      · cases h
        exact ⟨first, hfirst, rfl⟩
  · rename_i hlength
    rw [readWords_of_invalid_length (by tauto)] at h
    cases h
    rfl

/--
A binary can be read exactly if it is a positive number of whole words, the first of which is the
magic number in one of the two byte orders. Words that start with the magic number are read off
their bytes in both orders, and what is read has these bytes in one of them. The error names the
length, if that is at fault, and otherwise the first word, least significant byte first.
-/
theorem readWords_exact (bytes : Bytes) :
    ((∃ words, readWords bytes = .ok words) ↔
      bytes ≠ [] ∧ 4 ∣ bytes.length ∧
        (bytes.take 4 = ofWord magic ∨ bytes.take 4 = (ofWord magic).reverse)) ∧
    (∀ words, words.head? = some magic →
      readWords (ofWords words) = .ok words ∧ readWords (ofWordsBigEndian words) = .ok words) ∧
    (∀ words, readWords bytes = .ok words →
      words.head? = some magic ∧ (bytes = ofWords words ∨ bytes = ofWordsBigEndian words)) ∧
    ∀ error, readWords bytes = .error error →
      if bytes ≠ [] ∧ 4 ∣ bytes.length then
        ∃ first, bytes.take 4 = ofWord first ∧ error = .invalidMagic first
      else error = .invalidLength bytes.length :=
  ⟨exists_readWords_iff, fun _ h => ⟨readWords_ofWords h, readWords_ofWordsBigEndian h⟩,
    fun _ => eq_ofWords_of_readWords, fun _ => error_of_readWords⟩

/-- The magic number decides for the version after it too. -/
example : readWords [0x07, 0x23, 0x02, 0x03, 0x00, 0x01, 0x00, 0x00] =
    .ok [0x07230203, 0x00010000] := rfl

end Spirv

end ShaderBinding
