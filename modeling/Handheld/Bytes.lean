/-
# Byte arrays

Reading and writing byte arrays at places that may lie outside of them, filling and resizing, and
sums of bytes.  `get_put` says that a write changes one place and no other.
-/

namespace Handheld.Bytes

/-- The byte at a place, or `default` outside of the array. -/
def get (b : ByteArray) (i : Nat) (default : UInt8) : UInt8 :=
  if h : i < b.size then b[i] else default

/-- Change the byte at a place.  Outside of the array nothing happens. -/
def put (b : ByteArray) (i : Nat) (v : UInt8) : ByteArray :=
  if h : i < b.size then b.set i v h else b

/-- A byte in terms of the array's list of bytes. -/
theorem get_eq (b : ByteArray) (i : Nat) (d : UInt8) : get b i d = b.data[i]?.getD d := by
  unfold get
  by_cases h : i < b.size
  · have h' : i < b.data.size := h
    rw [dif_pos h, Array.getElem?_eq_getElem h']
    rfl
  · have h' : ¬ i < b.data.size := h
    rw [dif_neg h, Array.getElem?_eq_none (by omega)]
    rfl

theorem data_put (b : ByteArray) (i : Nat) (v : UInt8) :
    (put b i v).data = b.data.setIfInBounds i v := by
  obtain ⟨data⟩ := b
  unfold put
  by_cases h : i < data.size
  · rw [dif_pos (show i < (ByteArray.mk data).size from h), Array.setIfInBounds, dif_pos h]
    rfl
  · rw [dif_neg (show ¬ i < (ByteArray.mk data).size from h), Array.setIfInBounds, dif_neg h]

theorem size_put (b : ByteArray) (i : Nat) (v : UInt8) : (put b i v).size = b.size := by
  show (put b i v).data.size = b.data.size
  rw [data_put, Array.size_setIfInBounds]

theorem get_put (b : ByteArray) (i j : Nat) (v d : UInt8) :
    get (put b i v) j d = if i = j ∧ j < b.size then v else get b j d := by
  rw [get_eq, get_eq, data_put, Array.getElem?_setIfInBounds]
  by_cases hij : i = j
  · subst hij
    by_cases hi : i < b.data.size
    · rw [if_pos rfl, if_pos hi, if_pos ⟨rfl, hi⟩]
      rfl
    · rw [if_pos rfl, if_neg hi, if_neg (fun h => hi h.2), Array.getElem?_eq_none (by omega)]
  · rw [if_neg hij, if_neg (fun h => hij h.1)]

/-- Append a byte `n` times. -/
def pad (v : UInt8) : (n : Nat) → ByteArray → ByteArray
  | 0, b => b
  | n + 1, b => pad v n (b.push v)

/-- An array of `n` equal bytes. -/
def fill (n : Nat) (v : UInt8) : ByteArray :=
  pad v n ByteArray.empty

/-- Cut or extend an array to `n` bytes. -/
def resize (b : ByteArray) (n : Nat) (v : UInt8) : ByteArray :=
  if n ≤ b.size then b.extract 0 n else pad v (n - b.size) b

/-- Change bytes at consecutive places. -/
def putAll (b : ByteArray) (i : Nat) : List UInt8 → ByteArray
  | [] => b
  | v :: vs => putAll (put b i v) (i + 1) vs

/-- Copy bytes of one array over the start of another, as many as both have. -/
def overlay (b source : ByteArray) : ByteArray :=
  source.extract 0 b.size ++ b.extract source.size b.size

/-- The sum of `n` bytes from place `i` on, added to `acc`. -/
def sumFrom (b : ByteArray) : (n i acc : Nat) → Nat
  | 0, _, acc => acc
  | n + 1, i, acc => sumFrom b n (i + 1) (acc + (get b i 0).toNat)

/-- The sum of all bytes. -/
def sum (b : ByteArray) : Nat :=
  sumFrom b b.size 0 0

/-- The bytes from place `i` up to place `j`. -/
def slice (b : ByteArray) (i j : Nat) : List UInt8 :=
  (b.extract i j).toList

end Handheld.Bytes
