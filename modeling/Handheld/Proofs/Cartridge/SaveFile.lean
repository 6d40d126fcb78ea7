/-
# Memory that a battery keeps

A cartridge with a battery and memory has a second file beside its own.  Loading fills the memory
from it, as far as it goes, and saving writes the whole memory to it.  The main statement,
`Cartridge.memory_survives`, says that what is saved after any writes is what the next loading
finds, while the controller starts anew; and that a cartridge without a battery or without memory
leaves all files alone.  Of the files it takes no more than that they keep what is written to them
(`FileSystem.Keeps`).
-/
import Handheld.Cartridge.File
import Handheld.Proofs.Cartridge.Windows
import Handheld.Proofs.FileSystem

namespace Handheld.Cartridge

open FileSystem (contents)

variable {image : ByteArray} {notices : List Notice} {c : Cartridge} {path : String}

/-! ## What writes leave -/

lemma write_keeps_file (c : Cartridge) (a : Address) (v : UInt8) :
    (c.write a v).savePath = c.savePath ∧ (c.write a v).battery = c.battery ∧
      (c.write a v).ram.size = c.ram.size := by
  unfold Cartridge.write
  split
  · split
    · exact ⟨rfl, rfl, Bytes.size_put _ _ _⟩
    · exact ⟨rfl, rfl, rfl⟩
  · split <;> exact ⟨rfl, rfl, rfl⟩

lemma after_keeps_file (c : Cartridge) (ws : Writes) :
    (c.after ws).savePath = c.savePath ∧ (c.after ws).battery = c.battery ∧
      (c.after ws).ram.size = c.ram.size := by
  induction ws with
  | nil => exact ⟨rfl, rfl, rfl⟩
  | cons w ws ih =>
    obtain ⟨hpath, hbattery, hsize⟩ := write_keeps_file (c.after ws) w.1 w.2
    exact ⟨hpath.trans ih.1, hbattery.trans ih.2.1, hsize.trans ih.2.2⟩

/-! ## What loading finds -/

/-- The bytes of a memory of some size that is filled from a file: as many as there are in the file,
and then zeros. -/
def filled (size : Nat) (saved : Option ByteArray) : List UInt8 :=
  let bytes := saved.elim [] (·.data.toList)
  bytes.take size ++ List.replicate (size - bytes.length) 0

lemma length_filled (size : Nat) (saved : Option ByteArray) :
    (filled size saved).length = size := by
  simp only [filled, List.length_append, List.length_take, List.length_replicate]
  omega

/-- A cartridge with what its memory holds, and with the file that keeps it. -/
def kept (c : Cartridge) (path : String) (ram : ByteArray) : Cartridge :=
  { c with ram := ram, savePath := some (savePathOf path) }

/-- The memory of a cartridge when it has been filled from a file, if there is one. -/
def restored (c : Cartridge) (saved : Option ByteArray) : ByteArray :=
  saved.elim c.ram (Bytes.overlay c.ram)

/-- Whether the memory of a cartridge is kept in a file. -/
def KeepsMemory (c : Cartridge) : Prop :=
  c.battery = true ∧ c.ramBanks ≠ 0

lemma LoadedFrom.toList_restored (h : LoadedFrom image c) (saved : Option ByteArray) :
    (c.restored saved).data.toList = filled (c.ramBanks * 0x2000) saved := by
  cases saved with
  | none =>
    change c.ram.data.toList = [].take _ ++ List.replicate (c.ramBanks * 0x2000 - 0) 0
    rw [h.ram, Bytes.toList_fill, List.take_nil, List.nil_append]
    rfl
  | some bytes =>
    change (Bytes.overlay c.ram bytes).data.toList = _
    rw [Bytes.toList_overlay, h.ram, Bytes.toList_fill, Bytes.size_fill, List.drop_replicate]
    rfl

lemma size_restored (c : Cartridge) (saved : Option ByteArray) :
    (c.restored saved).size = c.ram.size := by
  cases saved with
  | none => rfl
  | some bytes => exact Bytes.size_overlay c.ram bytes

/-- Whether there is anything to keep shows in the bytes of the memory, too. -/
lemma Stored.keepsMemory_iff (h : c.Stored) :
    (c.battery && !c.ram.isEmpty) = true ↔ c.KeepsMemory := by
  rw [Bool.and_eq_true, Bool.not_eq_true', ← Bool.not_eq_true, h.isEmpty_ram_iff]
  rfl

/-- A cartridge that comes from an image alone has no file to save to. -/
lemma unsaved_of_load (h : load image = .ok (c, notices)) :
    c.savePath = none ∧ c.battery = (Header.mk image).hasBattery := by
  unfold load at h
  split at h
  · cases h
  · rename_i header hheader
    obtain ⟨-, rfl⟩ := Header.ofImage?_eq_some_iff.mp hheader
    split at h
    · cases h
    · obtain ⟨rfl, -⟩ := Prod.mk.inj (Except.ok.inj h)
      exact ⟨rfl, rfl⟩

/-! ## Loading and saving -/

section Saving

variable {m : Type → Type} [Monad m] [FileSystem m]

lemma save_of_none (h : c.savePath = none) : (c.save : m Bool) = pure true := by
  rw [save, h]

lemma save_of_some (hpath : c.savePath = some path) (hbattery : c.battery = true) :
    (c.save : m Bool) = FileSystem.write path c.ram := by
  rw [save, hpath]
  exact if_pos hbattery

end Saving

section Files

variable {σ P : Type} [FileSystem (StateM σ)] {place : σ → String → P} {s t : σ}

/-- Loading from a file reads it, and the file of the memory if there is anything to keep. -/
lemma run_ofFile (hfiles : FileSystem.Keeps place) (hs : contents s path = some image)
    (hload : load image = .ok (c, notices)) :
    (ofFile path : StateM σ _).run s =
      (.ok (if c.battery && !c.ram.isEmpty then
          (c.kept path (c.restored (contents s (savePathOf path))),
            notices ++ ((contents s (savePathOf path)).map fun _ =>
              Notice.restored (savePathOf path)).toList)
        else (c, notices)), s) := by
  rw [ofFile, hfiles.run_read_bind, hs]
  simp only [hload]
  split
  · rw [hfiles.run_read_bind]
    cases contents s (savePathOf path) with
    | none =>
      rw [Option.map_none, Option.toList_none, List.append_nil]
      rfl
    | some saved => rfl
  · rfl

/-- The memory of a kept cartridge is found again as it was saved. -/
lemma run_ofFile_of_saved (hfiles : FileSystem.Keeps place) (hload : load image = .ok (c, notices))
    (hkeeps : c.KeepsMemory) (ht : contents t path = some image) {ram : ByteArray}
    (hram : contents t (savePathOf path) = some ram) (hsize : ram.size = c.ram.size) :
    ∃ told, (ofFile path : StateM σ _).run t = (.ok (c.kept path ram, told), t) := by
  rw [run_ofFile hfiles ht hload, if_pos ((stored_of_load hload).keepsMemory_iff.mpr hkeeps), hram,
    restored, Option.elim_some, Bytes.overlay_of_size_eq hsize]
  exact ⟨_, rfl⟩

/-- **A battery keeps the memory of a cartridge.**  When a cartridge with a battery and memory is
loaded, the memory holds what there is in its file, and then zeros.  Once it has been saved, after
any writes and to a file that is not its own, loading it again gives the memory as it was saved, and
all else as it is at first, the registers of the controller too.  Without a battery or without
memory nothing is ever written. -/
theorem memory_survives (hfiles : FileSystem.Keeps place) (hload : load image = .ok (c, notices))
    (hs : contents s path = some image) :
    (c.KeepsMemory →
      ∃ ram told, (ofFile path : StateM σ _).run s = (.ok (c.kept path ram, told), s) ∧
        ram.data.toList = filled (c.ramBanks * 0x2000) (contents s (savePathOf path)) ∧
        ∀ ws t t', contents t path = some image → place t path ≠ place t (savePathOf path) →
          (((c.kept path ram).after ws).save : StateM σ _).run t = (true, t') →
          ∃ told', (ofFile path : StateM σ _).run t' =
            (.ok (c.kept path ((c.kept path ram).after ws).ram, told'), t')) ∧
      (¬ c.KeepsMemory →
        (ofFile path : StateM σ _).run s = (.ok (c, notices), s) ∧
          ∀ (m : Type → Type) [Monad m] [FileSystem m] ws, ((c.after ws).save : m Bool) = pure true) ∧
      c.controller =
        match c.mapper with
        | .romOnly => .romOnly
        | .mbc1 => .mbc1 { low := 1, high := 0, mode := 0, ramEnable := false } := by
  have hloaded := loadedFrom_of_load hload
  have hiff := hloaded.stored.keepsMemory_iff
  refine ⟨fun hkeeps => ?_, fun hnot => ⟨?_, fun m _ _ ws => ?_⟩, hloaded.controller⟩
  · refine ⟨_, _, (run_ofFile hfiles hs hload).trans (by rw [if_pos (hiff.mpr hkeeps)]),
      hloaded.toList_restored _, fun ws t t' ht hplace hsave => ?_⟩
    obtain ⟨hpath, hbattery, hsize⟩ :=
      after_keeps_file (c.kept path (c.restored (contents s (savePathOf path)))) ws
    rw [save_of_some hpath (hbattery.trans hkeeps.1)] at hsave
    refine run_ofFile_of_saved hfiles hload hkeeps ((hfiles.other hsave hplace).trans ht)
      (hfiles.same hsave rfl) (hsize.trans ?_)
    exact size_restored c _
  · rw [run_ofFile hfiles hs hload, if_neg (mt hiff.mp hnot)]
  · exact save_of_none ((after_keeps_file c ws).1.trans (unsaved_of_load hload).1)

end Files

/-- The large cartridge in a file, and beside it a file with the start of its memory. -/
def shelf : FileTree where
  files := [(["game.gb"], largeImage), (["game.sav"], ⟨#[0x11, 0x22, 0x33]⟩)]

lemma splitOn_game : "game.gb".splitOn "/" = ["game.gb"] := by
  simp +decide [String.splitOn, String.splitOnAux]

lemma splitOn_save : "game.sav".splitOn "/" = ["game.sav"] := by
  simp +decide [String.splitOn, String.splitOnAux]

lemma savePathOf_game : savePathOf "game.gb" = "game.sav" := by
  have hparts : "game.gb".splitOn "." = ["game", "gb"] := by
    simp +decide [String.splitOn, String.splitOnAux]
  rw [savePathOf, splitOn_game]
  change "/".intercalate [saveName "game.gb"] = _
  rw [saveName, hparts]
  decide

lemma place?_shelf (hsplit : path.splitOn "/" = [path]) (hsize : path.utf8ByteSize ≤ 255)
    (hname : path ∉ ["", ".", ".."]) : shelf.place? path = some [path] := by
  rw [FileTree.place?_of_name hsplit hsize hname, FileTree.origin]
  split
  · rfl
  · rfl

/-- Once the memory has been enabled, its first bank takes bytes. -/
lemma get_ram_after_enable (hcontroller : c.controller = .mbc1 {}) (hsize : 0x123 < c.ram.size)
    (v : UInt8) : Bytes.get (c.after [(0xA123, v), (0x0000, 0x0A)]).ram 0x123 0 = v := by
  have henable : c.write 0x0000 0x0A = { c with controller := .mbc1 { ramEnable := true } } := by
    rw [write, if_neg (by decide), hcontroller]
    rfl
  have henabled : (c.write 0x0000 0x0A).ramEnabled = true := by
    have hne : c.ram.size ≠ 0 := by omega
    rw [henable]
    simpa [ramEnabled, ByteArray.isEmpty] using hne
  have hbank : (c.write 0x0000 0x0A).ramBank = 0 := by
    rw [henable]
    rfl
  have hindex : (c.write 0x0000 0x0A).ramIndex 0xA123 = 0x123 := by
    unfold ramIndex
    rw [hbank, Nat.zero_mul, Nat.zero_add]
    decide
  change Bytes.get ((c.write 0x0000 0x0A).write 0xA123 v).ram 0x123 0 = v
  rw [write_memory (by decide) henabled, hindex, henable]
  exact Bytes.get_put_self hsize v 0

/-- A byte written to the first memory bank is found again by the next loading. -/
theorem large_memory_survives :
    ∃ c notices, load largeImage = .ok (c, notices) ∧ c.KeepsMemory ∧
      contents shelf "game.gb" = some largeImage ∧
      ∃ ram told, (ofFile "game.gb" : StateM FileTree _).run shelf =
          (.ok (c.kept "game.gb" ram, told), shelf) ∧
        ram.data.toList = filled (4 * 0x2000) (some ⟨#[0x11, 0x22, 0x33]⟩) ∧
        ∃ d t told', d = (c.kept "game.gb" ram).after [(0xA123, 0x55), (0x0000, 0x0A)] ∧
          (d.save : StateM FileTree _).run shelf = (true, t) ∧
          (ofFile "game.gb" : StateM FileTree _).run t =
            (.ok (c.kept "game.gb" d.ram, told'), t) ∧
          Bytes.get d.ram 0x123 0 = 0x55 := by
  obtain ⟨c, notices, hload, hmapper, -, hbanks⟩ := exists_load_large
  have hcode : (Header.mk largeImage).typeCode = 0x03 := by
    simp [Header.typeCode, Header.byte, largeImage, Bytes.putAll, Bytes.get_put, Bytes.size_put]
  have hbattery : c.battery = true := by
    rw [(unsaved_of_load hload).2, Header.hasBattery, hcode]
    rfl
  have hkeeps : c.KeepsMemory := ⟨hbattery, by omega⟩
  have hgame : shelf.place? "game.gb" = some ["game.gb"] :=
    place?_shelf splitOn_game (by decide) (by decide)
  have hsave : shelf.place? "game.sav" = some ["game.sav"] :=
    place?_shelf splitOn_save (by decide) (by decide)
  have himage : contents shelf "game.gb" = some largeImage := by
    change (shelf.place? "game.gb").bind shelf.get? = _
    rw [hgame]
    rfl
  have hsaved : contents shelf "game.sav" = some ⟨#[0x11, 0x22, 0x33]⟩ := by
    change (shelf.place? "game.sav").bind shelf.get? = _
    rw [hsave]
    rfl
  obtain ⟨hsurvives, -, hcontroller⟩ := memory_survives FileTree.keeps hload himage
  obtain ⟨ram, told, hfirst, hfilled, hagain⟩ := hsurvives hkeeps
  rw [savePathOf_game, hsaved, hbanks] at hfilled
  have hplaces : shelf.place? "game.gb" ≠ shelf.place? (savePathOf "game.gb") := by
    rw [savePathOf_game, hgame, hsave]
    decide
  let ws : Writes := [(0xA123, 0x55), (0x0000, 0x0A)]
  have hwrite : (((c.kept "game.gb" ram).after ws).save : StateM FileTree _).run shelf =
      (true, shelf.put ["game.sav"] ((c.kept "game.gb" ram).after ws).ram) := by
    obtain ⟨hpath, hbattery', -⟩ := after_keeps_file (c.kept "game.gb" ram) ws
    rw [save_of_some hpath (hbattery'.trans hbattery), savePathOf_game, FileTree.run_write,
      FileTree.write?_of_place? hsave (by decide)]
  obtain ⟨told', hsecond⟩ := hagain ws shelf _ himage hplaces hwrite
  refine ⟨c, notices, hload, hkeeps, himage, ram, told, hfirst, hfilled, _, _, told', rfl, hwrite,
    hsecond, ?_⟩
  rw [hmapper] at hcontroller
  have hsize : ram.size = 4 * 0x2000 := by
    rw [← length_filled (4 * 0x2000) (some ⟨#[0x11, 0x22, 0x33]⟩), ← hfilled]
    rfl
  have hplace : 0x123 < ram.size := by omega
  exact get_ram_after_enable (c := c.kept "game.gb" ram) hcontroller hplace 0x55

end Handheld.Cartridge
