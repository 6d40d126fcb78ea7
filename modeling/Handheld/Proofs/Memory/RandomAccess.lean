/-
# Random-access memories

In a random-access memory a write that works changes the byte at its address and no other, and which
accesses work never changes (`Memory.RandomAccess`).  Two such memories that agree outside one
address still agree there after one write to both of them elsewhere (`Memory.AgreeOutside.write`).
An array of bytes is a random-access memory, and so is a map that has a byte of its own at each of
its addresses (`MemoryMap.randomAccess`).
-/
import Handheld.Proofs.MemoryMap.Aliases

namespace Handheld

namespace Memory

variable {M : Type} [Memory M] {kind : M → Prop} {m m' n : M} {a b : Address} {v : UInt8}

/-- Whether memories of a kind are random-access memories. -/
structure RandomAccess (kind : M → Prop) : Prop where
  keeps {m m' : M} {a : Address} {v : UInt8} (h : kind m) (hwrite : write m a v = (.ok (), m')) :
    kind m'
  /-- What is written is read, if the byte may be read. -/
  self {m m' : M} {a : Address} {v : UInt8} (h : kind m) (hwrite : write m a v = (.ok (), m')) :
    read m' a = (read m a).map fun _ => v
  other {m m' : M} {a b : Address} {v : UInt8} (h : kind m) (hwrite : write m a v = (.ok (), m'))
    (hb : b ≠ a) : read m' b = read m b
  /-- The writes that work stay the same. -/
  admits {m m' : M} {a : Address} {v : UInt8} (h : kind m) (hwrite : write m a v = (.ok (), m'))
    (b : Address) (w : UInt8) : (write m' b w).1 = (write m b w).1

/-- Whether two memories answer alike at all addresses but one. -/
structure AgreeOutside (a : Address) (m m' : M) : Prop where
  read {b : Address} (hb : b ≠ a) : read m' b = read m b
  admits {b : Address} (hb : b ≠ a) (v : UInt8) : (write m' b v).1 = (write m b v).1

/-- A write leaves a memory that agrees with the one before outside of its address. -/
lemma RandomAccess.agreeOutside (hkind : RandomAccess kind) (hm : kind m)
    (hwrite : write m a v = (.ok (), n)) : AgreeOutside a m n :=
  ⟨hkind.other hm hwrite, fun {b} _ w => hkind.admits hm hwrite b w⟩

/-- **The same write keeps memories in agreement**: it works on the second if it does on the
first. -/
theorem AgreeOutside.write (h : AgreeOutside a m m') (hkind : RandomAccess kind) (hm : kind m)
    (hm' : kind m') (hb : b ≠ a) (hwrite : Memory.write m b v = (.ok (), n)) :
    ∃ n', Memory.write m' b v = (.ok (), n') ∧ kind n ∧ kind n' ∧ AgreeOutside a n n' := by
  have hok : (Memory.write m' b v).1 = .ok () := by
    rw [h.admits hb, hwrite]
  have hwrite' : Memory.write m' b v = (.ok (), (Memory.write m' b v).2) := Prod.ext hok rfl
  refine ⟨_, hwrite', hkind.keeps hm hwrite, hkind.keeps hm' hwrite', ?_, ?_⟩
  · intro c hc
    by_cases hcb : c = b
    · subst hcb
      rw [hkind.self hm' hwrite', hkind.self hm hwrite, h.read hc]
    · rw [hkind.other hm' hwrite' hcb, hkind.other hm hwrite hcb, h.read hc]
  · intro c hc w
    rw [hkind.admits hm' hwrite' c w, hkind.admits hm hwrite c w, h.admits hc]

/-- The interrupts are the same in both memories, if neither of their registers is at the address
that the memories differ at. -/
lemma AgreeOutside.poll (h : AgreeOutside a m m') (hrequest : Interrupt.requestAddress ≠ a)
    (henable : Interrupt.enableAddress ≠ a) : Interrupt.poll m' = Interrupt.poll m := by
  rw [Interrupt.poll, h.read hrequest, h.read henable]
  rfl

end Memory

/-! ## Arrays of bytes -/

namespace Ram

variable {r r' : Ram} {a : Address} {v : UInt8}

lemma read_eq (r : Ram) (a : Address) :
    Memory.read r a =
      match r.refusal a .read r.access.readable with
      | some e => .error e
      | none => .ok (r.get a) :=
  rfl

lemma write_eq (r : Ram) (a : Address) (v : UInt8) :
    Memory.write r a v =
      match r.refusal a .write r.access.writable with
      | some e => (.error e, r)
      | none => (.ok (), r.put a v) :=
  rfl

@[simp] lemma refusal_put (r : Ram) (a b : Address) (v : UInt8) (access : Access)
    (admitted : Bool) : (r.put a v).refusal b access admitted = r.refusal b access admitted := by
  rw [refusal, refusal, offset_put, name_put]

/-- A write that works puts a byte where there is one. -/
lemma eq_put_of_write (h : Memory.write r a v = (.ok (), r')) :
    (r.offset a).isSome ∧ r' = r.put a v := by
  rw [write_eq] at h
  split at h
  · cases h
  · rename_i hrefusal
    refine ⟨?_, (congrArg Prod.snd h).symm⟩
    unfold refusal at hrefusal
    split at hrefusal
    · cases hrefusal
    · rename_i hoffset
      rw [hoffset]
      rfl

/-- **An array of bytes is a random-access memory.** -/
theorem randomAccess : Memory.RandomAccess fun _ : Ram => True where
  keeps _ _ := trivial
  self _ hwrite := by
    obtain ⟨hoffset, rfl⟩ := eq_put_of_write hwrite
    rw [read_eq, read_eq, access_put, refusal_put, get_put_self hoffset]
    split <;> rfl
  other _ hwrite hb := by
    obtain ⟨-, rfl⟩ := eq_put_of_write hwrite
    rw [read_eq, read_eq, access_put, refusal_put, get_put_of_ne _ hb]
  admits _ hwrite b w := by
    obtain ⟨-, rfl⟩ := eq_put_of_write hwrite
    rw [write_eq, write_eq, access_put, refusal_put]
    split <;> rfl

end Ram

/-! ## Maps -/

namespace MemoryMap

variable {m m' : MemoryMap} {s : Section} {a b : Address} {v : UInt8}

variable (m) in
/-- Whether each address that leads anywhere leads to a byte of memory of its own. -/
def Distinct : Prop :=
  ∀ a s b, m.resolve a = some (s, b) → b = a ∧ (s.byte? a).isSome

/-- A write that works stores a byte at its own address. -/
lemma Distinct.exists_stored (h : m.Distinct) (hwrite : Memory.write m a v = (.ok (), m')) :
    ∃ s, m.resolve a = some (s, a) ∧ owner? m.regions a = some (.backed s) ∧
      s.Keeps m.board a id ∧ m' = m.stored a v := by
  rcases write_cases m a v with ⟨s, b, hresolve, heq⟩ | ⟨e, heq⟩
  · obtain ⟨rfl, hbyte⟩ := h a s b hresolve
    obtain ⟨access, haccess⟩ := Option.isSome_iff_exists.mp hbyte
    exact ⟨s, hresolve, owner?_of_follow hresolve, Section.keeps_of_byte? haccess m.board,
      congrArg Prod.snd (hwrite.symm.trans heq)⟩
  · rw [hwrite] at heq
    cases heq

/-- A write changes neither the access rules nor the names of sections, so the same writes work. -/
lemma fst_write_stored (ha : owner? m.regions a = some (.backed s)) (v : UInt8) (b : Address)
    (w : UInt8) : (Memory.write (m.stored a v) b w).1 = (Memory.write m b w).1 := by
  cases h : m.resolve b with
  | none => rw [write_of_resolve_none h, write_of_resolve_none (resolve_stored_none a v h)]
  | some target =>
    obtain ⟨t, c⟩ := target
    obtain ⟨t', h', haccess, hname⟩ : ∃ t', (m.stored a v).resolve b = some (t', c) ∧
        t'.accessAt c = t.accessAt c ∧ t'.name = t.name := by
      rcases resolve_stored ha v h with ⟨h', -⟩ | ⟨rfl, h'⟩
      · exact ⟨t, h', rfl, rfl⟩
      · exact ⟨_, h', t.accessAt_write _ _ _ _, t.name_write _ _ _⟩
    by_cases hwritable : (t.accessAt c).writable = true
    · rw [write_of_resolve h hwritable, write_of_resolve h' (by rwa [haccess])]
    · rw [write_of_not_writable h hwritable, write_of_not_writable h' (by rwa [haccess]), hname]

lemma Distinct.stored (h : m.Distinct) (ha : owner? m.regions a = some (.backed s)) (v : UInt8) :
    (m.stored a v).Distinct := by
  intro c t b hresolve
  cases hbefore : m.resolve c with
  | none =>
    rw [resolve_stored_none a v hbefore] at hresolve
    cases hresolve
  | some target =>
    obtain ⟨t', b'⟩ := target
    obtain ⟨rfl, hbyte⟩ := h c t' b' hbefore
    rcases resolve_stored ha v hbefore with ⟨h', -⟩ | ⟨rfl, h'⟩
    · obtain ⟨rfl, rfl⟩ := Prod.mk.inj (Option.some.inj (hresolve.symm.trans h'))
      exact ⟨rfl, hbyte⟩
    · obtain ⟨rfl, rfl⟩ := Prod.mk.inj (Option.some.inj (hresolve.symm.trans h'))
      exact ⟨rfl, by rwa [Section.byte?_write]⟩

/-- A map of arrays of bytes, without remaps, has a byte of its own at each address. -/
lemma distinct_of_ram (h : ∀ r ∈ m.regions, ∃ bytes, r = .backed (.ram bytes)) : m.Distinct := by
  intro a s b hresolve
  unfold resolve follow at hresolve
  cases howner : owner? m.regions a with
  | none =>
    rw [howner] at hresolve
    cases hresolve
  | some r =>
    rw [howner] at hresolve
    obtain ⟨hmem, howns⟩ := owner?_eq_some howner
    obtain ⟨bytes, rfl⟩ := h r hmem
    obtain ⟨rfl, rfl⟩ := Prod.mk.inj (Option.some.inj hresolve)
    obtain ⟨hstart, hstop⟩ := Region.owns_iff.mp howns
    have hoffset : (bytes.offset a).isSome := by
      refine Option.isSome_iff_exists.mpr ⟨_, Ram.offset_eq_some_iff.mpr ⟨hstart, rfl, ?_⟩⟩
      change a.toNat < bytes.start.toNat + bytes.bytes.size at hstop
      change bytes.start.toNat ≤ a.toNat at hstart
      omega
    refine ⟨rfl, ?_⟩
    rw [Section.byte?, if_pos hoffset]
    rfl

/-- **A map with a byte of its own at each address is a random-access memory.** -/
theorem randomAccess : Memory.RandomAccess Distinct where
  keeps h hwrite := by
    obtain ⟨s, -, howner, -, rfl⟩ := h.exists_stored hwrite
    exact h.stored howner _
  self {m m' a v} h hwrite := by
    obtain ⟨s, hresolve, howner, hkeeps, rfl⟩ := h.exists_stored hwrite
    rw [read_stored_of_keeps howner hkeeps, place_of_resolve hresolve, read_of_resolve hresolve]
    by_cases hreadable : (s.accessAt a).readable = true
    · rw [if_pos ⟨rfl, hreadable⟩, if_pos hreadable]
      rfl
    · rw [if_neg (fun hboth => hreadable hboth.2), if_neg hreadable]
      rfl
  other {m m' a b v} h hwrite hb := by
    obtain ⟨s, hresolve, howner, hkeeps, rfl⟩ := h.exists_stored hwrite
    rw [read_stored_of_keeps howner hkeeps, if_neg]
    rintro ⟨hplace, -⟩
    obtain ⟨target, htarget, hsnd⟩ := Option.map_eq_some_iff.mp hplace
    exact hb (hsnd.symm.trans (h b target.1 target.2 htarget).1).symm
  admits h hwrite b w := by
    obtain ⟨s, -, howner, -, rfl⟩ := h.exists_stored hwrite
    exact fst_write_stored howner _ b w

end MemoryMap

end Handheld
