/-
# Bytes at consecutive places

A decoder reads a stream of bytes by position, and a processor reads a memory by address.  Both
may fail.  `Stream.Holds` and `Memory.Holds` say that a list of bytes can be read from a place on;
they are what a decoder needs to know of its input, and what an assembler leaves behind.
-/
import Mathlib.Tactic.Lemma
import Handheld.Memory.Basic

namespace Handheld

/-! ## Results that may be errors -/

section Outcome

variable {ε α β : Type}

@[simp] lemma ok_bind (a : α) (f : α → Except ε β) : (Except.ok a >>= f) = f a := rfl

@[simp] lemma error_bind (e : ε) (f : α → Except ε β) :
    ((Except.error e : Except ε α) >>= f) = Except.error e := rfl

lemma bind_eq_ok {x : Except ε α} {f : α → Except ε β} {b : β} :
    x >>= f = Except.ok b ↔ ∃ a, x = Except.ok a ∧ f a = Except.ok b := by
  cases x with
  | error e => simp
  | ok a => simp

lemma bind_eq_error {x : Except ε α} {f : α → Except ε β} {e : ε} :
    x >>= f = Except.error e ↔
      x = Except.error e ∨ ∃ a, x = Except.ok a ∧ f a = Except.error e := by
  cases x with
  | error e' => simp
  | ok a => simp

end Outcome

/-! ## Streams -/

namespace Stream

variable {ε : Type} {fetch fetch' : Nat → Except ε UInt8} {pos : Nat}

/-- The stream gives these bytes from a position on. -/
def Holds (fetch : Nat → Except ε UInt8) (pos : Nat) (bytes : List UInt8) : Prop :=
  ∀ k (h : k < bytes.length), fetch (pos + k) = .ok bytes[k]

@[simp] lemma holds_nil : Holds fetch pos [] := by
  intro k h
  exact absurd h (Nat.not_lt_zero k)

lemma holds_cons {b : UInt8} {bytes : List UInt8} :
    Holds fetch pos (b :: bytes) ↔ fetch pos = .ok b ∧ Holds fetch (pos + 1) bytes := by
  constructor
  · intro h
    refine ⟨h 0 (Nat.zero_lt_succ _), ?_⟩
    intro k hk
    have h' := h (k + 1) (Nat.succ_lt_succ hk)
    rwa [show pos + (k + 1) = pos + 1 + k by omega] at h'
  · rintro ⟨hb, h⟩ k hk
    cases k with
    | zero => exact hb
    | succ k =>
      have h' := h k (Nat.lt_of_succ_lt_succ hk)
      rwa [show pos + 1 + k = pos + (k + 1) by omega] at h'

lemma holds_append {first second : List UInt8} :
    Holds fetch pos (first ++ second) ↔
      Holds fetch pos first ∧ Holds fetch (pos + first.length) second := by
  induction first generalizing pos with
  | nil => simp
  | cons b first ih =>
    rw [List.cons_append, holds_cons, holds_cons, ih, and_assoc, List.length_cons,
      show pos + 1 + first.length = pos + (first.length + 1) by omega]

/-- What is held depends on the bytes of the stretch alone. -/
lemma Holds.congr {bytes : List UInt8} (h : Holds fetch pos bytes)
    (heq : ∀ k < bytes.length, fetch' (pos + k) = fetch (pos + k)) :
    Holds fetch' pos bytes := by
  intro k hk
  rw [heq k hk]
  exact h k hk

end Stream

/-! ## Memories -/

namespace Memory

variable {M : Type} [Memory M]

/-- The bytes of a memory as a stream that starts at an address. -/
def stream (m : M) (a : Address) (k : Nat) : Except MemoryError UInt8 :=
  read m (a + UInt16.ofNat k)

/-- The memory gives these bytes from an address on, wrapping at the top of the space. -/
def Holds (m : M) (a : Address) (bytes : List UInt8) : Prop :=
  ∀ k (h : k < bytes.length), read m (a + UInt16.ofNat k) = .ok bytes[k]

lemma holds_iff_stream {m : M} {a : Address} {bytes : List UInt8} :
    Holds m a bytes ↔ Stream.Holds (stream m a) 0 bytes := by
  simp only [Holds, Stream.Holds, stream, Nat.zero_add]

@[simp] lemma holds_nil (m : M) (a : Address) : Holds m a [] :=
  holds_iff_stream.mpr Stream.holds_nil

lemma Holds.byte {m : M} {a : Address} {b : UInt8} (h : Holds m a [b]) : read m a = .ok b := by
  simpa using h 0 Nat.zero_lt_one

lemma Holds.word {m : M} {a : Address} {lo hi : UInt8} (h : Holds m a [lo, hi]) :
    read m a = .ok lo ∧ read m (a + 1) = .ok hi := by
  refine ⟨?_, h 1 Nat.one_lt_two⟩
  simpa using h 0 Nat.zero_lt_two

end Memory

end Handheld
