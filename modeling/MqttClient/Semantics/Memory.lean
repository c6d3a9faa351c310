/-
# Byte memory seen from a pointer

A C buffer argument is a pointer and, at best, a size that the callee may or may
not respect.  `Memory` is what lies at and after such a pointer: total, because
reading or writing past the end of the buffer is a possible behaviour that a
model has to be able to express before it can be excluded.

A pointer is null or an offset into a memory.  Only ranges are loaded and
stored, so every law below is about how two ranges meet.
-/

import Mathlib.Data.List.Basic

namespace MqttClient.Semantics

/-- The bytes at and after a pointer. -/
@[reducible]
def Memory : Type := Nat → UInt8

namespace Memory

/-- The `len` bytes from offset `start` on. -/
def load (m : Memory) (start len : Nat) : List UInt8 :=
  (List.range len).map fun i => m (start + i)

/-- The memory after `bytes` were written from offset `start` on. -/
def store (m : Memory) (start : Nat) (bytes : List UInt8) : Memory :=
  fun i => if i < start then m i else (bytes[i - start]?).getD (m i)

/-- The memory seen from `offset` bytes further on. -/
def shift (m : Memory) (offset : Nat) : Memory := fun i => m (offset + i)

@[simp]
theorem shift_apply (m : Memory) (offset i : Nat) : m.shift offset i = m (offset + i) := rfl

@[simp]
theorem load_length (m : Memory) (start len : Nat) : (m.load start len).length = len := by
  simp [load]

@[simp]
theorem load_zero (m : Memory) (start : Nat) : m.load start 0 = [] := rfl

theorem load_shift (m : Memory) (offset start len : Nat) :
    (m.shift offset).load start len = m.load (offset + start) len := by
  simp [load, Nat.add_assoc]

theorem getElem?_load (m : Memory) (start : Nat) {len i : Nat} (h : i < len) :
    (m.load start len)[i]? = some (m (start + i)) := by
  simp [load, h]

/-- A range is its first part followed by the rest. -/
theorem load_add (m : Memory) (start first rest : Nat) :
    m.load start (first + rest) = m.load start first ++ m.load (start + first) rest := by
  simp [load, List.range_add, Nat.add_assoc]

theorem load_succ (m : Memory) (start len : Nat) :
    m.load start (len + 1) = m start :: m.load (start + 1) len := by
  rw [Nat.add_comm len 1, load_add]
  simp [load]

/-- Ranges that agree byte by byte are equal as lists. -/
theorem load_congr {m m' : Memory} {start len : Nat}
    (h : ∀ i, i < len → m (start + i) = m' (start + i)) :
    m.load start len = m'.load start len := by
  apply List.map_congr_left
  intro i hi
  exact h i (List.mem_range.mp hi)

/-- A memory that begins with the bytes shows them. -/
theorem load_getD (bytes : List UInt8) {len : Nat} (h : len ≤ bytes.length) :
    load (fun i => bytes.getD i 0) 0 len = bytes.take len := by
  apply List.ext_getElem?
  intro i
  by_cases hi : i < len
  · have hlt : i < bytes.length := by omega
    rw [getElem?_load _ _ hi, List.getElem?_take_of_lt hi, List.getElem?_eq_getElem hlt]
    simp [hlt]
  · rw [List.getElem?_eq_none (by simpa using hi), List.getElem?_eq_none (by simp; omega)]

@[simp]
theorem store_nil (m : Memory) (start : Nat) : m.store start [] = m := by
  funext i
  simp [store]

/-- A store leaves everything before it alone. -/
theorem store_apply_of_lt (m : Memory) {start i : Nat} (bytes : List UInt8) (h : i < start) :
    m.store start bytes i = m i := by
  simp [store, h]

/-- A store leaves everything after it alone. -/
theorem store_apply_of_ge (m : Memory) {start i : Nat} {bytes : List UInt8}
    (h : start + bytes.length ≤ i) : m.store start bytes i = m i := by
  have hlt : ¬ i < start := by omega
  have hnone : bytes[i - start]? = none := List.getElem?_eq_none (by omega)
  simp [store, hlt, hnone]

/-- Two runs of bytes stored one behind the other are one run. -/
theorem store_store_append (m : Memory) (start : Nat) (first rest : List UInt8) :
    (m.store start first).store (start + first.length) rest = m.store start (first ++ rest) := by
  funext i
  simp only [store]
  by_cases hstart : i < start
  · rw [if_pos hstart, if_pos (by omega), if_pos hstart]
  · by_cases hfirst : i < start + first.length
    · rw [if_pos hfirst, if_neg hstart, if_neg hstart, List.getElem?_append_left (by omega)]
    · have hnone : first[i - start]? = none := List.getElem?_eq_none (by omega)
      rw [if_neg hfirst, if_neg hstart, if_neg hstart, hnone, Option.getD_none,
        List.getElem?_append_right (by omega), Nat.sub_sub]

/-- Inside the stored range the stored byte is seen. -/
theorem store_apply_add (m : Memory) (start : Nat) {bytes : List UInt8} {i : Nat} {b : UInt8}
    (h : bytes[i]? = some b) : m.store start bytes (start + i) = b := by
  have hlt : ¬ start + i < start := by omega
  simp [store, hlt, h]

theorem load_store_self (m : Memory) (start : Nat) (bytes : List UInt8) :
    (m.store start bytes).load start bytes.length = bytes := by
  apply List.ext_getElem?
  intro i
  by_cases hi : i < bytes.length
  · rw [getElem?_load _ _ hi, List.getElem?_eq_getElem hi]
    exact congrArg some (m.store_apply_add start (List.getElem?_eq_getElem hi))
  · rw [List.getElem?_eq_none (by simpa using hi), List.getElem?_eq_none (by simpa using hi)]

/-- A range that ends before the stored one is unchanged. -/
theorem load_store_of_le (m : Memory) {start len at' : Nat} (bytes : List UInt8)
    (h : start + len ≤ at') : (m.store at' bytes).load start len = m.load start len := by
  apply load_congr
  intro i hi
  exact m.store_apply_of_lt bytes (by omega)

/-- A range loaded from where something was stored: the stored bytes come first, and
what stood there before shows behind them. -/
theorem load_store_same (m : Memory) (start len : Nat) (bytes : List UInt8) :
    (m.store start bytes).load start len =
      bytes.take len ++ (m.load start len).drop bytes.length := by
  apply List.ext_getElem?
  intro i
  by_cases hi : i < len
  · rw [getElem?_load _ _ hi]
    by_cases hb : i < bytes.length
    · rw [List.getElem?_append_left (by simp; omega), List.getElem?_take_of_lt hi]
      rw [List.getElem?_eq_getElem hb, m.store_apply_add start (List.getElem?_eq_getElem hb)]
    · rw [List.getElem?_append_right (by simp; omega), List.getElem?_drop,
        m.store_apply_of_ge (by omega), List.length_take, Nat.min_eq_right (by omega),
        Nat.add_sub_cancel' (by omega), getElem?_load _ _ hi]
  · rw [List.getElem?_eq_none (by simp; omega), List.getElem?_eq_none (by simp; omega)]

/-- The bytes stand in the memory from `start` on. -/
def HasAt (m : Memory) (start : Nat) (bytes : List UInt8) : Prop :=
  m.load start bytes.length = bytes

/-- One run of bytes after the other. -/
theorem hasAt_append {m : Memory} {start : Nat} {first rest : List UInt8} :
    m.HasAt start (first ++ rest) ↔
      m.HasAt start first ∧ m.HasAt (start + first.length) rest := by
  rw [HasAt, List.length_append, load_add]
  constructor
  · intro h
    exact List.append_inj h (by simp)
  · rintro ⟨hfirst, hrest⟩
    rw [hfirst, hrest]

theorem hasAt_cons {m : Memory} {start : Nat} {b : UInt8} {rest : List UInt8} :
    m.HasAt start (b :: rest) ↔ m start = b ∧ m.HasAt (start + 1) rest := by
  rw [HasAt, List.length_cons, load_succ, List.cons.injEq, HasAt]

theorem hasAt_nil (m : Memory) (start : Nat) : m.HasAt start [] := rfl

/-- What is left behind the first bytes. -/
theorem HasAt.drop {m : Memory} {start : Nat} {bytes : List UInt8} (h : m.HasAt start bytes)
    (i : Nat) : m.HasAt (start + i) (bytes.drop i) := by
  by_cases hi : i ≤ bytes.length
  · have hsplit : m.HasAt start (bytes.take i ++ bytes.drop i) := by
      rw [List.take_append_drop]
      exact h
    have hrest := (hasAt_append.mp hsplit).2
    rwa [List.length_take, Nat.min_eq_left hi] at hrest
  · rw [List.drop_eq_nil_of_le (Nat.le_of_not_le hi)]
    exact hasAt_nil m _

/-- The first of the bytes alone. -/
theorem HasAt.load_take {m : Memory} {start : Nat} {bytes : List UInt8} (h : m.HasAt start bytes)
    {n : Nat} (hn : n ≤ bytes.length) : m.load start n = bytes.take n := by
  have hsplit : m.HasAt start (bytes.take n ++ bytes.drop n) := by
    rw [List.take_append_drop]
    exact h
  have hfirst : m.load start (bytes.take n).length = bytes.take n :=
    (hasAt_append.mp hsplit).1
  rwa [List.length_take, Nat.min_eq_left hn] at hfirst

theorem hasAt_store (m : Memory) (start : Nat) (bytes : List UInt8) :
    (m.store start bytes).HasAt start bytes :=
  load_store_self m start bytes

end Memory

/-- A pointer: null, or an offset into the memory it points to. -/
inductive Pointer
  | null
  | into (memory : Memory) (offset : Nat)

namespace Pointer

/-- What is seen through the pointer.  Nothing is promised about null. -/
def deref : Pointer → Memory
  | null => fun _ => 0
  | into memory offset => memory.shift offset

@[simp]
theorem deref_into (memory : Memory) (offset : Nat) :
    (into memory offset).deref = memory.shift offset := rfl

/-- The truth value of the pointer in a C condition. -/
def isNull : Pointer → Bool
  | null => true
  | into _ _ => false

end Pointer

end MqttClient.Semantics
