/-
Module: Hfc.Library.PrefixCode
Layer: Library
Purpose: Prefix codes. A text of code words can be taken apart in one way only, up to a rest that no
  code word begins. A code tree has a code word on the way to each of its leaves; it decodes a text
  bit by bit, and its inner nodes are the states in which it may stop.
Imports: Mathlib.Data.List.Basic
Main exports: encode, PrefixFree, Open, encode_isPrefix, encode_unique, CodeTree, CodeTree.build,
  CodeTree.walk, CodeTree.numbered, CodeTree.nodes, CodeTree.walk_numbered_unique, CodeTree.Codes,
  CodeTree.Codes.prefixFree, feed, feed_spec
-/
import Mathlib.Data.List.Basic

namespace PrefixCode

variable {α : Type*}

/-! ### Codes

An encoding symbol by symbol. In a prefix-free code a text is determined by the bits, and by any
bits that extend them. -/

/-- The code words of a message, one behind the other. -/
def encode (code : α → List Bool) (msg : List α) : List Bool :=
  msg.flatMap code

/-- No code word is empty, and none is the beginning of another. -/
structure PrefixFree (code : α → List Bool) : Prop where
  nonempty : ∀ a, code a ≠ []
  apart : ∀ a b, code a <+: code b → a = b

/-- No code word stands at the head of a text. -/
def Open (code : α → List Bool) (rest : List Bool) : Prop :=
  ∀ a, ¬ code a <+: rest

section

variable {code : α → List Bool}

@[simp] theorem encode_nil : encode code [] = [] := rfl

@[simp] theorem encode_cons (a : α) (msg : List α) :
    encode code (a :: msg) = code a ++ encode code msg := rfl

@[simp] theorem encode_append (front back : List α) :
    encode code (front ++ back) = encode code front ++ encode code back :=
  List.flatMap_append

/-- The words found at the head of a text are the first of its message. -/
theorem encode_isPrefix (free : PrefixFree code) {msg msg' : List α} {rest rest' : List Bool}
    (same : encode code msg ++ rest = encode code msg' ++ rest') (opened : Open code rest') :
    msg <+: msg' := by
  induction msg generalizing msg' with
  | nil => exact List.nil_prefix
  | cons a msg ih =>
      rw [encode_cons, List.append_assoc] at same
      cases msg' with
      | nil =>
          have here : code a <+: rest' := ⟨_, same⟩
          exact absurd here (opened a)
      | cons b msg' =>
          rw [encode_cons, List.append_assoc] at same
          have first : code a <+: code b ++ (encode code msg' ++ rest') := ⟨_, same⟩
          have equal : a = b := by
            rcases List.prefix_or_prefix_of_prefix first (List.prefix_append _ _) with front | front
            · exact free.apart a b front
            · exact (free.apart b a front).symm
          subst equal
          exact (List.prefix_cons_inj a).mpr (ih (List.append_cancel_left same))

/-- A text has one message and one rest. -/
theorem encode_unique (free : PrefixFree code) {msg msg' : List α} {rest rest' : List Bool}
    (same : encode code msg ++ rest = encode code msg' ++ rest') (opened : Open code rest)
    (opened' : Open code rest') : msg = msg' ∧ rest = rest' := by
  have front := encode_isPrefix free same opened'
  have back := encode_isPrefix free same.symm opened
  obtain rfl := front.eq_of_length (Nat.le_antisymm front.length_le back.length_le)
  exact ⟨rfl, List.append_cancel_left same⟩

end

/-! ### Code trees

The tree of a code, built by inserting its words, with its inner nodes numbered in the order of a
walk: the numbers are the states of a decoder. -/

/-- A code tree; its inner nodes carry a number. -/
inductive CodeTree (α : Type*) where
  | hole
  | leaf (a : α)
  | node (number : Nat) (zero one : CodeTree α)

namespace CodeTree

/-- Put a leaf at the end of a path, over whatever stands there. -/
def insert (a : α) : List Bool → CodeTree α → CodeTree α
  | [], _ => .leaf a
  | false :: bits, .node n zero one => .node n (insert a bits zero) one
  | true :: bits, .node n zero one => .node n zero (insert a bits one)
  | false :: bits, _ => .node 0 (insert a bits .hole) .hole
  | true :: bits, _ => .node 0 .hole (insert a bits .hole)

/-- The tree with leaves for some symbols and their words. -/
def build : List (α × List Bool) → CodeTree α → CodeTree α
  | [], t => t
  | word :: words, t => build words (t.insert word.1 word.2)

/-- The subtree at the end of a path. -/
def walk : CodeTree α → List Bool → Option (CodeTree α)
  | t, [] => some t
  | .node _ zero one, b :: bits => walk (if b then one else zero) bits
  | _, _ :: _ => none

/-- The number of inner nodes. -/
def size : CodeTree α → Nat
  | .node _ zero one => zero.size + one.size + 1
  | _ => 0

/-- The tree with its inner nodes numbered from `n` on: a node in front of those below it, and those
behind a zero in front of those behind a one. -/
def numbered : Nat → CodeTree α → CodeTree α
  | n, .node _ zero one => .node n (zero.numbered (n + 1)) (one.numbered (n + 1 + zero.size))
  | _, t => t

/-- The number of an inner node, zero for what is none. -/
def number : CodeTree α → Nat
  | .node n _ _ => n
  | _ => 0

/-- The inner nodes in the order of their numbers. -/
def nodes : CodeTree α → List (CodeTree α)
  | .node n zero one => .node n zero one :: (zero.nodes ++ one.nodes)
  | _ => []

theorem walk_append (t : CodeTree α) (front back : List Bool) :
    t.walk (front ++ back) = (t.walk front).bind fun t' => t'.walk back := by
  induction front generalizing t with
  | nil => rfl
  | cons b front ih =>
      cases t with
      | node n zero one => exact ih _
      | hole => rfl
      | leaf a => rfl

/-- A leaf of a tree behind an insertion is the new one, or it was there before. -/
theorem walk_insert {a b : α} {bits path : List Bool} {t : CodeTree α}
    (found : (t.insert a bits).walk path = some (.leaf b)) :
    (b, path) = (a, bits) ∨ t.walk path = some (.leaf b) := by
  induction bits generalizing t path with
  | nil =>
      cases path with
      | nil =>
          cases found
          exact .inl rfl
      | cons c path => cases found
  | cons bit bits ih =>
      cases path with
      | nil => cases bit <;> cases t <;> cases found
      | cons c path =>
          -- A word is put where its path leads, and what was in its way is gone.
          have noLeaf {p : List Bool} : (CodeTree.hole : CodeTree α).walk p ≠ some (.leaf b) := by
            cases p <;> simp [walk]
          have deeper {s : CodeTree α} (inside : (s.insert a bits).walk path = some (.leaf b))
              (same : c = bit) : (b, c :: path) = (a, bit :: bits) ∨ s.walk path = some (.leaf b) := by
            rcases ih inside with equal | old
            · cases equal
              exact .inl (by rw [same])
            · exact .inr old
          cases t with
          | node n zero one =>
              cases bit <;> cases c
              · exact deeper found rfl
              · exact .inr found
              · exact .inr found
              · exact deeper found rfl
          | hole =>
              cases bit <;> cases c
              · exact .inl ((deeper found rfl).resolve_right noLeaf)
              · exact absurd found noLeaf
              · exact absurd found noLeaf
              · exact .inl ((deeper found rfl).resolve_right noLeaf)
          | leaf d =>
              cases bit <;> cases c
              · exact .inl ((deeper found rfl).resolve_right noLeaf)
              · exact absurd found noLeaf
              · exact absurd found noLeaf
              · exact .inl ((deeper found rfl).resolve_right noLeaf)

/-- A leaf of a tree that was built stands at the end of its word. -/
theorem walk_build {words : List (α × List Bool)} {t : CodeTree α} {b : α} {path : List Bool}
    (found : (build words t).walk path = some (.leaf b)) :
    (b, path) ∈ words ∨ t.walk path = some (.leaf b) := by
  induction words generalizing t with
  | nil => exact .inr found
  | cons word words ih =>
      rcases ih found with later | old
      · exact .inl (List.mem_cons_of_mem _ later)
      · rcases walk_insert old with new | old
        · exact .inl (by rw [new]; exact List.mem_cons_self)
        · exact .inr old

/-- Numbers change neither the paths nor the leaves. -/
theorem walk_numbered {n : Nat} {t : CodeTree α} {path : List Bool} {b : α}
    (found : (t.numbered n).walk path = some (.leaf b)) : t.walk path = some (.leaf b) := by
  induction path generalizing n t with
  | nil =>
      cases t with
      | leaf a => exact found
      | node m zero one => cases found
      | hole => cases found
  | cons bit path ih =>
      cases t with
      | leaf a => cases found
      | hole => cases found
      | node m zero one =>
          cases bit
          · exact ih found
          · exact ih found

/-- An inner node that a path leads to is among the inner nodes. -/
theorem mem_nodes {t : CodeTree α} {path : List Bool} {n : Nat} {zero one : CodeTree α}
    (found : t.walk path = some (.node n zero one)) : .node n zero one ∈ t.nodes := by
  induction path generalizing t with
  | nil =>
      cases found
      exact List.mem_cons_self
  | cons bit path ih =>
      cases t with
      | leaf a => cases found
      | hole => cases found
      | node m zero' one' =>
          rw [nodes]
          cases bit
          · exact List.mem_cons_of_mem _ (List.mem_append_left _ (ih found))
          · exact List.mem_cons_of_mem _ (List.mem_append_right _ (ih found))

/-- A node of a tree is an inner one. -/
def IsInner (t : CodeTree α) : Prop :=
  ∃ n zero one, t = .node n zero one

/-- The inner nodes of a numbered tree, in order, have the numbers from `n` on. -/
theorem map_number_nodes (n : Nat) (t : CodeTree α) :
    (t.numbered n).nodes.map number = List.range' n t.size := by
  induction t generalizing n with
  | hole => rfl
  | leaf a => rfl
  | node m zero one ihZero ihOne =>
      rw [numbered, nodes, List.map_cons, List.map_append, ihZero, ihOne, size, List.range'_succ,
        ← List.range'_append, Nat.one_mul]
      rfl

theorem number_range {n : Nat} {t s : CodeTree α} {path : List Bool}
    (found : (t.numbered n).walk path = some s) (inner : s.IsInner) :
    n ≤ s.number ∧ s.number < n + t.size := by
  obtain ⟨m, zero, one, rfl⟩ := inner
  have member := List.mem_map_of_mem (f := number) (mem_nodes found)
  rw [map_number_nodes, List.mem_range'_1] at member
  exact member

/-- In a numbered tree one path leads to an inner node. -/
theorem walk_numbered_unique {n : Nat} {t s s' : CodeTree α} {path path' : List Bool}
    (found : (t.numbered n).walk path = some s) (found' : (t.numbered n).walk path' = some s')
    (inner : s.IsInner) (inner' : s'.IsInner) (same : s.number = s'.number) : path = path' := by
  induction path generalizing n t path' with
  | nil =>
      cases path' with
      | nil => rfl
      | cons c path' =>
          cases t with
          | hole => cases found'
          | leaf a => cases found'
          | node m zero one =>
              -- the root has the lowest number, the inner nodes below it higher ones
              have root : s.number = n := by
                cases found
                rfl
              cases c
              · have below := (number_range (t := zero) found' inner').1
                omega
              · have below := (number_range (t := one) found' inner').1
                omega
  | cons b path ih =>
      cases t with
      | hole => cases found
      | leaf a => cases found
      | node m zero one =>
          cases path' with
          | nil =>
              have root : s'.number = n := by
                cases found'
                rfl
              cases b
              · have below := (number_range (t := zero) found inner).1
                omega
              · have below := (number_range (t := one) found inner).1
                omega
          | cons c path' =>
              cases b <;> cases c
              · exact congrArg _ (ih (t := zero) found found')
              -- numbers below the zero end where those below the one start
              · have left := (number_range (t := zero) found inner).2
                have right := (number_range (t := one) found' inner').1
                omega
              · have left := (number_range (t := zero) found' inner').2
                have right := (number_range (t := one) found inner).1
                omega
              · exact congrArg _ (ih (t := one) found found')

/-- A tree whose leaves stand at the ends of the code words. -/
structure Codes (t : CodeTree α) (code : α → List Bool) : Prop where
  inner : t.IsInner
  words : ∀ a, t.walk (code a) = some (.leaf a)
  leaves : ∀ path a, t.walk path = some (.leaf a) → path = code a

variable {root : CodeTree α} {code : α → List Bool}

/-- The code of a tree is a prefix code. -/
theorem Codes.prefixFree (codes : root.Codes code) : PrefixFree code where
  nonempty a empty := by
    obtain ⟨n, zero, one, rfl⟩ := codes.inner
    have word := codes.words a
    rw [empty] at word
    cases word
  apart a b := by
    rintro ⟨rest, split⟩
    have word := codes.words b
    rw [← split, walk_append, codes.words a] at word
    cases rest with
    | nil =>
        cases word
        rfl
    | cons c rest => cases word

/-- The way to an inner node has no code word at its head. -/
theorem Codes.open_of_walk (codes : root.Codes code) {path : List Bool} {t : CodeTree α}
    (there : root.walk path = some t) (inner : t.IsInner) : Open code path := by
  rintro a ⟨rest, rfl⟩
  obtain ⟨n, zero, one, rfl⟩ := inner
  rw [walk_append, codes.words a] at there
  cases rest with
  | nil => cases there
  | cons c rest => cases there

end CodeTree

/-! ### Decoding

Bits fed one by one from a node of the tree: what has been decoded, and the node that is reached. -/

/-- Follow some bits from the inner node `t` of the tree `root`, starting again at its root behind
every leaf: the symbols of the leaves, and the node that is reached. -/
def feed (root : CodeTree α) : CodeTree α → List Bool → Option (List α × CodeTree α)
  | t, [] => some ([], t)
  | .node _ zero one, b :: bits =>
      match if b then one else zero with
      | .leaf a => (feed root root bits).map fun r => (a :: r.1, r.2)
      | .node n zero' one' => feed root (.node n zero' one') bits
      | .hole => none
  | _, _ :: _ => none

/-- What was followed is the words of the symbols, and the way from the root to the node that is
reached. -/
theorem feed_spec {root : CodeTree α} {code : α → List Bool} (codes : root.Codes code)
    (path : List Bool) {bits : List Bool} {t t' : CodeTree α} {msg : List α}
    (there : root.walk path = some t)
    (inner : t.IsInner) (fed : feed root t bits = some (msg, t')) :
    ∃ path', root.walk path' = some t' ∧ t'.IsInner ∧
      path ++ bits = encode code msg ++ path' := by
  induction bits generalizing path t msg with
  | nil =>
      obtain ⟨n, zero, one, rfl⟩ := inner
      cases fed
      exact ⟨path, there, ⟨n, zero, one, rfl⟩, by simp⟩
  | cons b bits ih =>
      obtain ⟨n, zero, one, rfl⟩ := inner
      have next : root.walk (path ++ [b]) = some (if b then one else zero) := by
        rw [CodeTree.walk_append, there]
        rfl
      rw [feed] at fed
      generalize (if b then one else zero) = child at fed next
      cases child with
      | hole => cases fed
      | leaf a =>
          obtain ⟨⟨later, reached⟩, fed', equal⟩ := Option.map_eq_some_iff.mp fed
          cases equal
          obtain ⟨path', there', inner', split⟩ := ih [] rfl codes.inner fed'
          refine ⟨path', there', inner', ?_⟩
          rw [encode_cons, ← codes.leaves _ _ next, List.append_assoc, ← split, List.append_assoc]
          rfl
      | node m zero' one' =>
          obtain ⟨path', there', inner', split⟩ := ih _ next ⟨m, zero', one', rfl⟩ fed
          exact ⟨path', there', inner', by rw [← split, List.append_assoc]; rfl⟩

end PrefixCode
