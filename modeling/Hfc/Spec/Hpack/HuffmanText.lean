/-
Module: Hfc.Spec.Hpack.HuffmanText
Layer: Spec
Purpose: The Huffman code of header strings on its own terms: the code word of each symbol, which
  together are a prefix code, and the bytes of a string, which are its code words with ones behind
  them.
Imports: Hfc.Core.Hpack.HuffmanData, Hfc.Library.BitString, Hfc.Library.PrefixCode
Main exports: HuffSym, HuffSym.eos, HuffSym.ofByte, huffCode, huffTree, huffTree_codes, huffBits,
  huffText
-/
import Hfc.Core.Hpack.HuffmanData
import Hfc.Library.BitString
import Hfc.Library.PrefixCode

namespace Hfc.Hpack

open ByteText BitString PrefixCode

/-- A symbol: a byte, or the end of the string. -/
abbrev HuffSym := Fin 257

/-- The end of the string. -/
def HuffSym.eos : HuffSym := 256

/-- The symbol of a byte. -/
def HuffSym.ofByte (b : Byte) : HuffSym :=
  ⟨b.toNat, Nat.lt_succ_of_lt b.toNat_lt⟩

/-- The code word of an entry of the table, without its alignment. -/
def wordBits (entry : Nat × Nat) : List Bool :=
  toBits entry.1 (entry.2 >>> (32 - entry.1))

/-- The code word of a symbol. -/
def huffCode (s : HuffSym) : List Bool :=
  wordBits (huffSymTable.getD s.val (0, 0))

/-- The symbols from `n` on with the words of some entries. -/
def wordsFrom : Nat → List (Nat × Nat) → List (HuffSym × List Bool)
  | _, [] => []
  | n, entry :: entries => (Fin.ofNat 257 n, wordBits entry) :: wordsFrom (n + 1) entries

/-- The code tree. -/
def huffTree : CodeTree HuffSym :=
  (CodeTree.build (wordsFrom 0 huffSymTable) .hole).numbered 0

/-- Whether a path ends at the leaf of a symbol. -/
def endsAt (s : HuffSym) : Option (CodeTree HuffSym) → Bool
  | some (.leaf a) => a = s
  | _ => false

theorem endsAt_eq_true {s : HuffSym} {t : Option (CodeTree HuffSym)} (ends : endsAt s t = true) :
    t = some (.leaf s) := by
  unfold endsAt at ends
  split at ends
  · rw [of_decide_eq_true ends]
  · cases ends

/-- Whether all words lead to their leaves. -/
def wordsEnd : List (HuffSym × List Bool) → Bool
  | [] => true
  | word :: words => endsAt word.1 (huffTree.walk word.2) && wordsEnd words

theorem wordsEnd_of_mem {words : List (HuffSym × List Bool)} (all : wordsEnd words = true)
    {word : HuffSym × List Bool} (member : word ∈ words) :
    huffTree.walk word.2 = some (.leaf word.1) := by
  induction words with
  | nil => cases member
  | cons first words ih =>
      obtain ⟨here, later⟩ := Bool.and_eq_true_iff.mp all
      rcases List.mem_cons.mp member with rfl | there
      · exact endsAt_eq_true here
      · exact ih later there

/-- The word of entry number `i`. -/
theorem getElem?_wordsFrom (n : Nat) (entries : List (Nat × Nat)) (i : Nat) :
    (wordsFrom n entries)[i]? =
      entries[i]?.map fun entry => (Fin.ofNat 257 (n + i), wordBits entry) := by
  induction entries generalizing n i with
  | nil => simp [wordsFrom]
  | cons entry entries ih =>
      cases i with
      | zero => simp [wordsFrom]
      | succ i => simp [wordsFrom, ih, Nat.add_comm, Nat.add_left_comm]

theorem length_huffSymTable : huffSymTable.length = 257 := by decide +kernel

/-- The words of the table are the code words of the symbols. -/
theorem mem_words_iff {s : HuffSym} {word : List Bool} :
    (s, word) ∈ wordsFrom 0 huffSymTable ↔ word = huffCode s := by
  have entry {i : Nat} (inTable : i < 257) :
      huffSymTable[i]? = some (huffSymTable.getD i (0, 0)) := by
    rw [← length_huffSymTable] at inTable
    rw [List.getD_eq_getElem?_getD, List.getElem?_eq_getElem inTable]
    rfl
  rw [List.mem_iff_getElem?]
  constructor
  · rintro ⟨i, found⟩
    rw [getElem?_wordsFrom, Option.map_eq_some_iff] at found
    obtain ⟨e, isEntry, same⟩ := found
    have inTable : i < 257 := by
      rw [← length_huffSymTable]
      exact (List.getElem?_eq_some_iff.mp isEntry).1
    rw [entry inTable, Option.some.injEq] at isEntry
    obtain ⟨rfl, rfl⟩ := Prod.mk.inj same
    have index : (Fin.ofNat 257 (0 + i)).val = i := by
      simp [Nat.mod_eq_of_lt inTable]
    rw [huffCode, index, isEntry]
  · rintro rfl
    refine ⟨s.val, ?_⟩
    rw [getElem?_wordsFrom, entry s.isLt, Option.map_some, huffCode]
    congr 2
    ext
    simp

theorem huffTree_wordsEnd : wordsEnd (wordsFrom 0 huffSymTable) = true := by decide +kernel

theorem huffTree_isInner : huffTree.number = 0 ∧ huffTree.size = 256 := by decide +kernel

/-- The leaves of the tree stand at the ends of the code words. -/
theorem huffTree_codes : huffTree.Codes huffCode where
  inner := by
    cases tree : huffTree with
    | node n zero one => exact ⟨n, zero, one, rfl⟩
    | leaf a =>
        have size := huffTree_isInner.2
        rw [tree] at size
        cases size
    | hole =>
        have size := huffTree_isInner.2
        rw [tree] at size
        cases size
  words a := wordsEnd_of_mem huffTree_wordsEnd (mem_words_iff.mpr rfl)
  leaves path a found := by
    rcases CodeTree.walk_build (CodeTree.walk_numbered found) with word | notBuilt
    · exact mem_words_iff.mp word
    · cases path <;> cases notBuilt

/-- The code words of a string. -/
def huffBits (src : Bytes) : List Bool :=
  encode huffCode (src.map HuffSym.ofByte)

/-- The bytes of a string: its code words one after the other, filled up with ones. -/
def huffText (src : Bytes) : Bytes :=
  packOnes (huffBits src)

@[simp] theorem huffBits_nil : huffBits [] = [] := rfl

theorem huffBits_cons (b : Byte) (src : Bytes) :
    huffBits (b :: src) = huffCode (.ofByte b) ++ huffBits src := rfl

end Hfc.Hpack
