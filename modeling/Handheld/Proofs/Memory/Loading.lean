/-
# Loading bytes into memory

Where every write works, and changes the byte at its address and no other (`Memory.Takes`), bytes
that are loaded are found at the addresses that they were loaded to, and nowhere else is anything
changed (`Memory.Takes.load`).  Arrays of bytes take bytes where they have room for them
(`Ram.takes`), and a map that has a writable byte of its own at each address takes them everywhere
(`MemoryMap.takes`).
-/
import Handheld.Proofs.Memory.RandomAccess
import Handheld.Proofs.MemoryMap.Layout

namespace Handheld

namespace Memory

variable {M : Type} [Memory M] {m : M} {a : Address} {bytes : List UInt8}

lemma holds_append {first second : List UInt8} :
    Holds m a (first ++ second) ↔
      Holds m a first ∧ Holds m (a + UInt16.ofNat first.length) second := by
  rw [holds_iff_stream, Stream.holds_append, holds_iff_stream, holds_iff_stream]
  refine and_congr_right fun _ => forall_congr' fun k => forall_congr' fun _ => ?_
  rw [stream, stream, Nat.zero_add, Nat.zero_add, UInt16.ofNat_add, UInt16.add_assoc]

lemma holds_cons {b : UInt8} :
    Holds m a (b :: bytes) ↔ read m a = .ok b ∧ Holds m (a + 1) bytes := by
  have h : Holds m a ([b] ++ bytes) ↔ Holds m a [b] ∧ Holds m (a + 1) bytes := holds_append
  refine h.trans (and_congr_left' ⟨Holds.byte, fun hb => ?_⟩)
  rw [holds_iff_stream, Stream.holds_cons, stream]
  exact ⟨by simpa using hb, Stream.holds_nil⟩

/-! ## Memories that take bytes -/

/-- Whether memories of a kind take any byte at the addresses where there is room: each write works
and changes what is seen at its address, and what is seen elsewhere stays. -/
def Takes (kind : M → Prop) (room : Address → Prop) (view : M → Address → Option UInt8) : Prop :=
  ∀ m a v, kind m → room a → ∃ m', write m a v = (.ok (), m') ∧ kind m' ∧ view m' a = some v ∧
    ∀ b ≠ a, view m' b = view m b

/-- Places less than the whole space apart are different. -/
lemma add_ofNat_ne {k : Nat} (a : Address) (hpos : 0 < k) (hlt : k < 0x10000) :
    a + UInt16.ofNat k ≠ a := by
  intro h
  have hzero : UInt16.ofNat k = 0 := UInt16.add_eq_left.mp h
  have hnat := congrArg UInt16.toNat hzero
  rw [UInt16.toNat_ofNat_of_lt' hlt] at hnat
  exact hpos.ne' hnat

/-- **Bytes that are loaded are where they were loaded to**, if they fit into the space, and
everything else is as before. -/
theorem Takes.load {kind : M → Prop} {room : Address → Prop} {view : M → Address → Option UInt8}
    (h : Takes kind room view) (hkind : kind m) (hlen : bytes.length ≤ 0x10000)
    (hroom : ∀ k < bytes.length, room (a + UInt16.ofNat k)) :
    ∃ m', load m a bytes = (.ok (), m') ∧ kind m' ∧
      (∀ k (hk : k < bytes.length), view m' (a + UInt16.ofNat k) = some bytes[k]) ∧
      ∀ b, (∀ k < bytes.length, b ≠ a + UInt16.ofNat k) → view m' b = view m b := by
  induction bytes generalizing m a with
  | nil => exact ⟨m, rfl, hkind, fun k hk => absurd hk (Nat.not_lt_zero k), fun _ _ => rfl⟩
  | cons v bytes ih =>
    rw [List.length_cons] at hlen
    have hshift (k : Nat) : a + 1 + UInt16.ofNat k = a + UInt16.ofNat (k + 1) := by
      rw [Nat.add_comm, UInt16.ofNat_add, UInt16.add_assoc]
      rfl
    have hfirst : a + UInt16.ofNat 0 = a := UInt16.add_zero a
    obtain ⟨m₁, hwrite, hkind₁, hself, hother⟩ :=
      h m a v hkind (hfirst ▸ hroom 0 (Nat.zero_lt_succ _))
    obtain ⟨m', hload, hkind', hin, hout⟩ := ih hkind₁ (by omega) fun k hk => by
      rw [hshift]
      exact hroom (k + 1) (Nat.succ_lt_succ hk)
    refine ⟨m', ?_, hkind', fun k hk => ?_, fun b hb => ?_⟩
    · rw [Memory.load, hwrite]
      exact hload
    · cases k with
      | zero =>
        -- the bytes after the first do not come round to it
        rw [hfirst, hout a fun j hj => ?_, hself]
        · rfl
        · rw [hshift]
          exact (add_ofNat_ne a (Nat.succ_pos j) (by omega)).symm
      | succ k =>
        rw [← hshift]
        exact hin k (Nat.lt_of_succ_lt_succ hk)
    · have hne : b ≠ a := hfirst ▸ hb 0 (Nat.zero_lt_succ _)
      rw [hout b fun k hk => ?_, hother b hne]
      rw [hshift]
      exact hb (k + 1) (Nat.succ_lt_succ hk)

end Memory

/-! ## Arrays of bytes -/

namespace Ram

variable {r : Ram} {a : Address}

/-- The array has bytes at the addresses between its bounds. -/
lemma isSome_offset (hstart : r.start.toNat ≤ a.toNat)
    (hstop : a.toNat < r.start.toNat + r.length) : (r.offset a).isSome := by
  refine Option.isSome_iff_exists.mpr ⟨_, offset_eq_some_iff.mpr ⟨hstart, rfl, ?_⟩⟩
  change a.toNat < r.start.toNat + r.bytes.size at hstop
  omega

/-- Whether an array is another one with other bytes, and may be read and written. -/
structure Refilled (r₀ r : Ram) : Prop where
  access : r.access = .readWrite
  offset (a : Address) : r.offset a = r₀.offset a

/-- An array that may be read and written takes bytes where it has room for them. -/
lemma takes (r₀ : Ram) : Memory.Takes r₀.Refilled (fun a => (r₀.offset a).isSome)
    fun r a => (Memory.read r a).toOption := by
  intro r a v hr hroom
  have hoffset : (r.offset a).isSome := by rwa [hr.offset]
  have hwrite : Memory.write r a v = (.ok (), r.put a v) := by
    obtain ⟨i, hi⟩ := Option.isSome_iff_exists.mp hoffset
    rw [write_eq, refusal, hi, hr.access]
    rfl
  refine ⟨r.put a v, hwrite, ⟨?_, fun b => ?_⟩, ?_, fun b hb => ?_⟩
  · rw [access_put, hr.access]
  · rw [offset_put, hr.offset]
  · change (Memory.read (r.put a v) a).toOption = some v
    obtain ⟨i, hi⟩ := Option.isSome_iff_exists.mp hoffset
    rw [read_eq, access_put, refusal_put, refusal, hi, hr.access, get_put_self hoffset]
    rfl
  · exact congrArg Except.toOption (randomAccess.other trivial hwrite hb)

end Ram

/-! ## Maps -/

namespace MemoryMap

variable {m n : MemoryMap} {s : Section} {a c : Address}

/-- The byte that is behind an address, whether or not it may be read. -/
def byteAt (m : MemoryMap) (a : Address) : Option UInt8 :=
  (m.resolve a).map fun (s, b) => s.read m.board b

variable (m) in
/-- Whether each address has a byte of memory of its own that may be written. -/
def Writable : Prop :=
  ∀ a, ∃ s access, m.resolve a = some (s, a) ∧ s.byte? a = some access ∧ access.writable = true

/-- Whether a map has the same regions as another, but for what they hold, and the same board. -/
structure Refilled (m m' : MemoryMap) : Prop where
  regions : m'.regions.map Region.blank = m.regions.map Region.blank
  board : m'.board = m.board

/-- In a map of arrays of bytes without gaps and remaps, each address leads to itself, in one of the
arrays. -/
lemma resolve_of_ram (hgap : gap? 0 m.regions = none)
    (h : ∀ r ∈ m.regions, ∃ bytes, r = .backed (.ram bytes)) (a : Address) :
    ∃ bytes, .backed (.ram bytes) ∈ m.regions ∧ m.resolve a = some (.ram bytes, a) ∧
      (bytes.offset a).isSome := by
  obtain ⟨r, howner⟩ := exists_owner_of_gap hgap (Nat.zero_le a.toNat)
  obtain ⟨hmem, howns⟩ := owner?_eq_some howner
  obtain ⟨bytes, rfl⟩ := h r hmem
  obtain ⟨hstart, hstop⟩ := Region.owns_iff.mp howns
  refine ⟨bytes, hmem, ?_, Ram.isSome_offset hstart hstop⟩
  rw [resolve, follow, howner]

/-- A map of arrays of bytes that may be written is one of memory that may be written. -/
lemma writable_of_ram (hgap : gap? 0 m.regions = none)
    (h : ∀ r ∈ m.regions, ∃ bytes : Ram, r = .backed (.ram bytes) ∧ bytes.access.writable = true) :
    m.Writable := by
  intro a
  obtain ⟨bytes, hmem, hresolve, hoffset⟩ :=
    resolve_of_ram hgap (fun r hr => (h r hr).imp fun _ hbytes => hbytes.1) a
  obtain ⟨_, ⟨⟩, hwritable⟩ := h _ hmem
  exact ⟨.ram bytes, bytes.access, hresolve, if_pos hoffset, hwritable⟩

/-- A map of arrays of bytes that may be read can be read everywhere. -/
lemma exists_read_of_ram (hgap : gap? 0 m.regions = none)
    (h : ∀ r ∈ m.regions, ∃ bytes : Ram, r = .backed (.ram bytes) ∧ bytes.access.readable = true)
    (a : Address) : ∃ b, Memory.read m a = .ok b := by
  obtain ⟨bytes, hmem, hresolve, -⟩ :=
    resolve_of_ram hgap (fun r hr => (h r hr).imp fun _ hbytes => hbytes.1) a
  obtain ⟨_, ⟨⟩, hreadable⟩ := h _ hmem
  exact ⟨_, (read_of_resolve hresolve).trans (if_pos hreadable)⟩

lemma byteAt_stored (ha : owner? m.regions a = some (.backed s)) (hkeeps : s.Keeps m.board a id)
    (v : UInt8) (c : Address) :
    (m.stored a v).byteAt c = if m.place c = some a then some v else m.byteAt c := by
  have hboard : (m.stored a v).board = m.board :=
    (board_put ha m.board v).trans (hkeeps.unmoved v)
  cases h : m.resolve c with
  | none =>
    rw [byteAt, resolve_stored_none a v h, byteAt, place, h]
    rfl
  | some target =>
    obtain ⟨t, b⟩ := target
    rw [place_of_resolve h, byteAt, byteAt, h]
    rcases resolve_stored ha v h with ⟨h', hne⟩ | ⟨rfl, h'⟩
    · rw [h', hboard, if_neg fun heq => hne (Option.some.inj heq)]
    · rw [h', hboard]
      by_cases hb : b = a
      · subst hb
        rw [if_pos rfl]
        exact congrArg some (hkeeps.same v)
      · rw [if_neg fun heq => hb (Option.some.inj heq)]
        exact congrArg some (hkeeps.other v hb)

lemma Writable.stored (h : m.Writable) (ha : owner? m.regions a = some (.backed s)) (v : UInt8) :
    (m.stored a v).Writable := by
  intro c
  obtain ⟨t, access, hresolve, hbyte, hwritable⟩ := h c
  rcases resolve_stored ha v hresolve with ⟨h', -⟩ | ⟨rfl, h'⟩
  · exact ⟨t, access, h', hbyte, hwritable⟩
  · exact ⟨_, access, h', by rwa [Section.byte?_write], hwritable⟩

/-- **A map of memory that may be written takes bytes at all addresses**, and neither its regions
nor its board change. -/
theorem takes (m : MemoryMap) :
    Memory.Takes (fun n => n.Writable ∧ m.Refilled n) (fun _ => True) byteAt := by
  rintro n a v ⟨hwritable, hregions, hboard⟩ -
  obtain ⟨s, access, hresolve, hbyte, haccess⟩ := hwritable a
  have howner := owner?_of_follow hresolve
  have hkeeps := Section.keeps_of_byte? hbyte n.board
  obtain ⟨hat, -⟩ := Section.exists_visible_of_byte? hbyte n.board
  refine ⟨n.stored a v, write_of_resolve hresolve (by rwa [hat]) v,
    ⟨hwritable.stored howner v, ?_, ?_⟩, ?_, fun b hb => ?_⟩
  · exact (blank_put n.board a v n.regions).trans hregions
  · exact ((board_put howner n.board v).trans (hkeeps.unmoved v)).trans hboard
  · rw [byteAt_stored howner hkeeps, if_pos (place_of_resolve hresolve)]
  · obtain ⟨t, -, hresolve', -⟩ := hwritable b
    rw [byteAt_stored howner hkeeps, place_of_resolve hresolve',
      if_neg fun heq => hb (Option.some.inj heq)]

end MemoryMap

end Handheld
