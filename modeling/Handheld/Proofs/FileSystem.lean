/-
# Files that keep what is written to them

`FileSystem.Keeps` says what one expects of a file system: reading changes nothing, a file that has
been written reads as it was written, and every other file reads as before.  Two paths may name one
file, so it is stated by the places that paths lead to.  Files in memory are of this kind
(`FileTree.keeps`), because a file is only put where its directory already is, so that no path leads
elsewhere afterwards.
-/
import Mathlib.Tactic.Lemma
import Handheld.FileSystem

namespace Handheld

namespace FileSystem

variable {σ P : Type} [FileSystem (StateM σ)]

/-- What the file that a path names holds, if it can be read. -/
def contents (s : σ) (path : String) : Option ByteArray :=
  ((FileSystem.read path : StateM σ _).run s).1

/-- Whether files keep what is written to them, where `place` is the place that a path leads to. -/
structure Keeps (place : σ → String → P) : Prop where
  /-- Reading changes nothing. -/
  reading (s : σ) (path : String) : ((FileSystem.read path : StateM σ _).run s).2 = s
  same {s s' : σ} {path other : String} {bytes : ByteArray}
    (hwrite : (FileSystem.write path bytes : StateM σ _).run s = (true, s'))
    (h : place s other = place s path) : contents s' other = some bytes
  other {s s' : σ} {path other : String} {bytes : ByteArray}
    (hwrite : (FileSystem.write path bytes : StateM σ _).run s = (true, s'))
    (h : place s other ≠ place s path) : contents s' other = contents s other

/-- What comes after a reading goes on from the contents, and from the same state. -/
lemma Keeps.run_read_bind {place : σ → String → P} (h : Keeps place) {s : σ} {path : String}
    {α : Type} (k : Option ByteArray → StateM σ α) :
    (FileSystem.read path >>= k : StateM σ α).run s = (k (contents s path)).run s := by
  have hread : (FileSystem.read path : StateM σ _).run s = (contents s path, s) :=
    Prod.ext rfl (h.reading s path)
  rw [StateT.run_bind, hread]
  rfl

end FileSystem

namespace FileTree

variable {t t' : FileTree} {p q : Place} {path : String} {bytes : ByteArray}

/-! ## Directories -/

lemma isDirectory_iff :
    t.isDirectory p = true ↔
      p <+: t.working ∨ ∃ f ∈ t.files, p.length < f.1.length ∧ p <+: f.1 := by
  simp [isDirectory]

/-- What is above a directory is a directory. -/
lemma isDirectory_above (h : t.isDirectory p = true) (hq : q <+: p) :
    t.isDirectory q = true := by
  rw [isDirectory_iff] at h ⊢
  rcases h with h | ⟨f, hf, hlt, hp⟩
  · exact .inl (hq.trans h)
  · exact .inr ⟨f, hf, Nat.lt_of_le_of_lt hq.length_le hlt, hq.trans hp⟩

/-- Whether a place is a directory, or in one. -/
def Placed (t : FileTree) (p : Place) : Prop :=
  t.isDirectory p = true ∨ ∃ dir part, p = dir ++ [part] ∧ t.isDirectory dir = true

lemma placed_enter (h : t.isDirectory p = true) (part : String) : t.Placed (enter p part) := by
  unfold enter
  split
  · exact .inl h
  · split
    · exact .inl (isDirectory_above h (List.dropLast_prefix p))
    · exact .inr ⟨p, part, rfl, h⟩

lemma placed_of_walk {parts : List String} (hp : t.Placed p) (h : t.walk p parts = some q) :
    t.Placed q := by
  induction parts generalizing p with
  | nil => exact Option.some.inj h ▸ hp
  | cons part parts ih =>
    rw [walk] at h
    split at h
    · rename_i hdir
      exact ih (placed_enter hdir.1 part) h
    · cases h

lemma isDirectory_origin (t : FileTree) (path : String) :
    t.isDirectory (t.origin path) = true := by
  refine isDirectory_iff.mpr (.inl ?_)
  unfold origin
  split
  · exact List.nil_prefix
  · exact List.prefix_rfl

/-- A path leads through directories only. -/
lemma placed_of_place? (h : t.place? path = some p) : t.Placed p := by
  unfold place? at h
  split at h
  · exact placed_of_walk (.inl (t.isDirectory_origin path)) h
  · cases h

/-- A path that is a name leads to the file of that name. -/
lemma place?_of_name (hsplit : path.splitOn "/" = [path]) (hsize : path.utf8ByteSize ≤ longestName)
    (hname : path ∉ ["", ".", ".."]) : t.place? path = some (t.origin path ++ [path]) := by
  simp only [List.mem_cons, List.not_mem_nil, or_false, not_or] at hname
  obtain ⟨hempty, hself, habove⟩ := hname
  have henter (dir : Place) : enter dir path = dir ++ [path] := by
    rw [enter, if_neg (not_or.mpr ⟨hempty, hself⟩), if_neg habove]
  rw [place?, if_pos (Nat.le_trans hsize (by decide)), hsplit, walk,
    if_pos ⟨t.isDirectory_origin path, hsize⟩, henter]
  rfl

/-! ## Putting a file -/

/-- Putting a file into a directory makes no directory and takes none away. -/
lemma isDirectory_put (hp : t.Placed p) (hfile : ¬ t.isDirectory p = true) (bytes : ByteArray)
    (q : Place) : (t.put p bytes).isDirectory q = t.isDirectory q := by
  obtain ⟨dir, part, rfl, hdir⟩ := hp.resolve_left hfile
  have habove (hlt : q.length < (dir ++ [part]).length) (hq : q <+: dir ++ [part]) :
      t.isDirectory q = true := by
    rw [List.length_append, List.length_singleton] at hlt
    exact isDirectory_above hdir
      (List.prefix_of_prefix_length_le hq (List.prefix_append dir [part]) (by omega))
  rw [Bool.eq_iff_iff]
  constructor
  · intro h
    rcases isDirectory_iff.mp h with h | ⟨f, hf, hlt, hq⟩
    · exact isDirectory_iff.mpr (.inl h)
    · rcases List.mem_cons.mp hf with rfl | hf
      · exact habove hlt hq
      · exact isDirectory_iff.mpr (.inr ⟨f, (List.mem_filter.mp hf).1, hlt, hq⟩)
  · intro h
    rcases isDirectory_iff.mp h with h | ⟨f, hf, hlt, hq⟩
    · exact isDirectory_iff.mpr (.inl h)
    · by_cases hsame : f.1 = dir ++ [part]
      · rw [hsame] at hlt hq
        exact isDirectory_iff.mpr (.inr ⟨_, List.mem_cons_self, hlt, hq⟩)
      · refine isDirectory_iff.mpr (.inr ⟨f, List.mem_cons_of_mem _ ?_, hlt, hq⟩)
        exact List.mem_filter.mpr ⟨hf, bne_iff_ne.mpr hsame⟩

lemma walk_congr (h : ∀ q, t'.isDirectory q = t.isDirectory q) (p : Place) (parts : List String) :
    t'.walk p parts = t.walk p parts := by
  induction parts generalizing p with
  | nil => rfl
  | cons part parts ih => rw [walk, walk, h, ih]

lemma place?_put (hp : t.Placed p) (hfile : ¬ t.isDirectory p = true) (bytes : ByteArray)
    (path : String) : (t.put p bytes).place? path = t.place? path := by
  rw [place?, place?, walk_congr (isDirectory_put hp hfile bytes)]
  rfl

lemma get?_put_self (t : FileTree) (p : Place) (bytes : ByteArray) :
    (t.put p bytes).get? p = some bytes :=
  List.lookup_cons_self

lemma get?_put_of_ne (t : FileTree) (h : q ≠ p) (bytes : ByteArray) :
    (t.put p bytes).get? q = t.get? q := by
  rw [get?, put, List.lookup_cons, beq_false_of_ne h]
  change (t.files.filter (·.1 != p)).lookup q = t.files.lookup q
  induction t.files with
  | nil => rfl
  | cons f files ih =>
    obtain ⟨r, contents⟩ := f
    by_cases hr : r = p
    · subst hr
      rw [List.filter_cons_of_neg (by simp), ih, List.lookup_cons, beq_false_of_ne h]
    · rw [List.filter_cons_of_pos (by simpa using hr), List.lookup_cons, List.lookup_cons, ih]

/-- A write that works puts a file where its path leads, which was no directory. -/
lemma of_write? (h : t.write? path bytes = some t') :
    ∃ p, t.place? path = some p ∧ ¬ t.isDirectory p = true ∧ t' = t.put p bytes := by
  obtain ⟨p, hp, h⟩ := Option.bind_eq_some_iff.mp h
  split at h
  · cases h
  · rename_i hfile
    exact ⟨p, hp, hfile, (Option.some.inj h).symm⟩

lemma write?_of_place? (hp : t.place? path = some p) (hfile : ¬ t.isDirectory p = true)
    (bytes : ByteArray) : t.write? path bytes = some (t.put p bytes) := by
  rw [write?, hp]
  exact if_neg hfile

lemma run_write (t : FileTree) (path : String) (bytes : ByteArray) :
    (FileSystem.write path bytes : StateM FileTree _).run t =
      match t.write? path bytes with
      | some t' => (true, t')
      | none => (false, t) := by
  change (match t.write? path bytes with
    | some t' => (set t' >>= fun _ => pure true : StateM FileTree Bool)
    | none => pure false).run t = _
  cases t.write? path bytes with
  | none => rfl
  | some t' => rfl

/-- **Files in memory keep what is written to them.** -/
theorem keeps : FileSystem.Keeps place? := by
  have hwritten {t t' : FileTree} {path : String} {bytes : ByteArray}
      (hwrite : (FileSystem.write path bytes : StateM FileTree _).run t = (true, t')) :
      ∃ p, t.place? path = some p ∧ t'.place? = t.place? ∧ t' = t.put p bytes := by
    rw [run_write] at hwrite
    split at hwrite
    · rename_i t'' hwrite?
      obtain ⟨-, rfl⟩ := Prod.mk.inj hwrite
      obtain ⟨p, hp, hfile, rfl⟩ := of_write? hwrite?
      exact ⟨p, hp, funext (place?_put (placed_of_place? hp) hfile bytes), rfl⟩
    · cases hwrite
  refine ⟨fun _ _ => rfl, fun {t t' path other bytes} hwrite h => ?_,
    fun {t t' path other bytes} hwrite h => ?_⟩
  · obtain ⟨p, hp, hplace, rfl⟩ := hwritten hwrite
    change (FileTree.place? _ other).bind _ = some bytes
    rw [hplace, h, hp]
    exact get?_put_self t p bytes
  · obtain ⟨p, hp, hplace, rfl⟩ := hwritten hwrite
    change (FileTree.place? _ other).bind _ = (t.place? other).bind t.get?
    rw [hplace]
    cases hother : t.place? other with
    | none => rfl
    | some q =>
      refine get?_put_of_ne t ?_ bytes
      rintro rfl
      exact h (hother.trans hp.symm)

end FileTree

end Handheld
