/-
# Facts about byte arrays

What filling, cutting and changing byte arrays leaves of their sizes and of their bytes.  An array
is the bytes that are read from it (`Bytes.ext_get`), so that two arrays are compared place by
place.
-/
import Mathlib.Tactic.Lemma
import Handheld.Bytes

namespace Handheld

namespace Bytes

/-! ## Sizes -/

lemma size_pad (v : UInt8) (n : Nat) (b : ByteArray) : (pad v n b).size = b.size + n := by
  induction n generalizing b with
  | zero => rfl
  | succ n ih =>
    rw [pad, ih, ByteArray.size_push]
    omega

@[simp] lemma size_fill (n : Nat) (v : UInt8) : (fill n v).size = n := by
  rw [fill, size_pad, ByteArray.size_empty, Nat.zero_add]

@[simp] lemma size_resize (b : ByteArray) (n : Nat) (v : UInt8) : (resize b n v).size = n := by
  unfold resize
  split
  · rename_i h
    rw [ByteArray.size_extract, Nat.min_eq_left h, Nat.sub_zero]
  · rename_i h
    rw [size_pad]
    omega

@[simp] lemma size_overlay (b source : ByteArray) : (overlay b source).size = b.size := by
  rw [overlay, ByteArray.size_append, ByteArray.size_extract, ByteArray.size_extract]
  omega

/-! ## Bytes -/

lemma toList_pad (v : UInt8) (n : Nat) (b : ByteArray) :
    (pad v n b).data.toList = b.data.toList ++ List.replicate n v := by
  induction n generalizing b with
  | zero => simp [pad]
  | succ n ih =>
    rw [pad, ih, ByteArray.data_push, Array.toList_push, List.append_assoc,
      List.replicate_succ, List.singleton_append]

lemma toList_fill (n : Nat) (v : UInt8) : (fill n v).data.toList = List.replicate n v := by
  rw [fill, toList_pad]
  rfl

lemma toList_resize (b : ByteArray) (n : Nat) (v : UInt8) :
    (resize b n v).data.toList = (b.data.toList ++ List.replicate n v).take n := by
  have hsize : b.data.toList.length = b.size := rfl
  unfold resize
  split
  · rename_i hle
    rw [ByteArray.data_extract, Array.toList_extract, List.take_append_of_le_length (by omega)]
    simp [List.extract]
  · rename_i hgt
    rw [toList_pad, List.take_append, List.take_of_length_le (by omega), hsize,
      List.take_replicate]
    congr 2
    omega

lemma toList_overlay (b source : ByteArray) :
    (overlay b source).data.toList =
      source.data.toList.take b.size ++ b.data.toList.drop source.size := by
  have hrest : (b.data.toList.drop source.size).length = b.size - source.size := List.length_drop
  rw [overlay, ByteArray.data_append, Array.toList_append, ByteArray.data_extract,
    ByteArray.data_extract, Array.toList_extract, Array.toList_extract, List.extract, List.extract,
    List.drop_zero, Nat.sub_zero, List.take_of_length_le (Nat.le_of_eq hrest)]

/-- Of an array that is copied over another one of its size, all is left, and nothing of the
other. -/
lemma overlay_of_size_eq {b source : ByteArray} (h : source.size = b.size) :
    overlay b source = source := by
  have hb : b.data.toList.length = b.size := rfl
  have hsource : source.data.toList.length = source.size := rfl
  refine ByteArray.ext (Array.toList_inj.mp ?_)
  rw [toList_overlay, List.take_of_length_le (by omega), List.drop_of_length_le (by omega),
    List.append_nil]

lemma getElem?_toList (b : ByteArray) {i : Nat} (h : i < b.size) (d : UInt8) :
    b.data.toList[i]? = some (get b i d) := by
  have h' : i < b.data.size := h
  rw [get_eq, Array.getElem?_toList, Array.getElem?_eq_getElem h']
  rfl

lemma get_of_size_le {b : ByteArray} {i : Nat} (h : b.size ≤ i) (d : UInt8) : get b i d = d := by
  rw [get, dif_neg (Nat.not_lt.mpr h)]

/-- Arrays of one size with the same bytes are the same. -/
lemma ext_get {a b : ByteArray} (hsize : a.size = b.size)
    (h : ∀ i, i < a.size → get a i 0 = get b i 0) : a = b := by
  refine ByteArray.ext_getElem hsize fun i hi hi' => ?_
  have hbyte := h i hi
  rwa [get, get, dif_pos hi, dif_pos hi'] at hbyte

lemma get_put_self {b : ByteArray} {i : Nat} (h : i < b.size) (v d : UInt8) :
    get (put b i v) i d = v := by
  rw [get_put, if_pos ⟨rfl, h⟩]

lemma get_put_of_ne (b : ByteArray) {i j : Nat} (h : i ≠ j) (v d : UInt8) :
    get (put b i v) j d = get b j d := by
  rw [get_put, if_neg fun hin => h hin.1]

lemma get_fill (n : Nat) (v : UInt8) {i : Nat} (h : i < n) (d : UInt8) :
    get (fill n v) i d = v := by
  have hsome := getElem?_toList (fill n v) (by rwa [size_fill]) d
  rw [toList_fill, List.getElem?_replicate, if_pos h] at hsome
  exact (Option.some.inj hsome).symm

/-- Cutting or filling up an array keeps its first bytes. -/
lemma get_resize (b : ByteArray) {n : Nat} (v : UInt8) {i : Nat} (hi : i < n) (hi' : i < b.size)
    (d : UInt8) : get (resize b n v) i d = get b i d := by
  have hlength : i < b.data.toList.length := hi'
  rw [get_eq, get_eq, ← Array.getElem?_toList, ← Array.getElem?_toList, toList_resize,
    List.getElem?_take_of_lt hi, List.getElem?_append_left hlength]

lemma slice_congr {a b : ByteArray} {i j : Nat} (ha : j ≤ a.size) (hb : j ≤ b.size)
    (h : ∀ k, k < j → get a k 0 = get b k 0) : slice a i j = slice b i j := by
  refine congrArg ByteArray.toList (ByteArray.ext_getElem ?_ fun k hk hk' => ?_)
  · rw [ByteArray.size_extract, ByteArray.size_extract, Nat.min_eq_left ha, Nat.min_eq_left hb]
  · rw [ByteArray.size_extract, Nat.min_eq_left ha] at hk
    have hbyte := h (i + k) (by omega)
    rw [get, get, dif_pos (by omega), dif_pos (by omega)] at hbyte
    rw [ByteArray.getElem_extract, ByteArray.getElem_extract]
    exact hbyte

end Bytes

end Handheld
