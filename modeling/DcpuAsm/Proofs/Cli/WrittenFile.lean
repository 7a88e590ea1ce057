import DcpuAsm.Match
import DcpuAsm.Cli.Folder

/-!
A file that was written, read back. The parts of a name in front of the last all have to lead to
folders, so a file that is put where no folder is does not stand in the way of any name
(`KeepsFolders.walk`). Main statements: reading succeeds exactly on a file that holds text
(`read_eq_ok_iff`), and a text that was written is what its name reads as, while nothing else has
changed (`saved_of_write`).
-/

namespace DcpuAsm

variable {content : ByteArray} {text : String}

theorem decodeText_toUTF8 (text : String) : decodeText text.toUTF8 = .ok text := by
  unfold decodeText String.fromUTF8?
  rw [String.toUTF8_eq_toByteArray, dif_pos text.isValidUTF8]
  rfl

theorem decodeText_eq_ok_iff : decodeText content = .ok text ↔ content = text.toUTF8 := by
  refine ⟨fun h => ?_, fun h => h ▸ decodeText_toUTF8 text⟩
  rw [decodeText] at h
  split at h
  · next t hdecode =>
    obtain rfl : t = text := Except.ok.inj h
    unfold String.fromUTF8? at hdecode
    split at hdecode
    · cases hdecode
      rfl
    · contradiction
  · contradiction

namespace Folder

variable {f g : Folder} {path : List String} {name : String}

/-- What writing a text to the file of a name amounts to: the name reads as the text, and no path but
that of the file leads to anything else than before. -/
structure Saved (f g : Folder) (name text : String) : Prop where
  read_eq : g.read name = .ok text
  only : ∃ path, f.target name = .ok path ∧ g.get? path = some (.file text.toUTF8) ∧
    ∀ other, other ≠ path → g.get? other = f.get? other

/-! ### Reading -/

/-- Reading succeeds on files that hold text, and on nothing else. -/
theorem read_eq_ok_iff : f.read name = .ok text ↔
    ∃ path, f.walk name = .ok path ∧ f.get? path = some (.file text.toUTF8) := by
  rw [read, bind_eq_ok]
  refine exists_congr fun path => and_congr_right fun _ => ?_
  constructor
  · intro h
    split at h
    · contradiction
    · contradiction
    · next hget => rw [hget, decodeText_eq_ok_iff.1 h]
  · intro hget
    rw [hget]
    exact decodeText_eq_ok_iff.2 rfl

/-! ### Names in a folder in which a file was put -/

theorem checkFolder_eq_ok_iff : f.checkFolder path = .ok () ↔ f.get? path = some .folder := by
  rw [checkFolder]
  split <;> simp_all

/-- All folders of `f` are folders of `g` too, and both work in the same one. -/
structure KeepsFolders (f g : Folder) : Prop where
  here_eq : g.here = f.here
  get?_eq : ∀ path, f.get? path = some .folder → g.get? path = some .folder

theorem keepsFolders_put (h : f.get? path ≠ some .folder) (e : Entry) :
    KeepsFolders f (f.put path e) := by
  refine ⟨rfl, fun other hother => ?_⟩
  have hne : other ≠ path := by
    rintro rfl
    exact h hother
  rw [get?_put_of_ne f e hne, hother]

theorem KeepsFolders.checkFolder (h : KeepsFolders f g) (hcheck : f.checkFolder path = .ok ()) :
    g.checkFolder path = .ok () :=
  checkFolder_eq_ok_iff.2 (h.get?_eq path (checkFolder_eq_ok_iff.1 hcheck))

theorem KeepsFolders.enter (h : KeepsFolders f g) {start : List String} {part : String}
    (henter : f.enter start part = .ok path) : g.enter start part = .ok path := by
  obtain ⟨⟨⟩, hcheck, hstep⟩ := bind_eq_ok.1 henter
  exact bind_eq_ok.2 ⟨(), h.checkFolder hcheck, hstep⟩

theorem KeepsFolders.foldlM_enter (h : KeepsFolders f g) {parts start : List String}
    (hparts : parts.foldlM f.enter start = .ok path) :
    parts.foldlM g.enter start = .ok path := by
  induction parts generalizing start with
  | nil => exact hparts
  | cons part parts ih =>
    rw [List.foldlM_cons, bind_eq_ok] at hparts ⊢
    obtain ⟨next, hnext, hrest⟩ := hparts
    exact ⟨next, h.enter hnext, ih hrest⟩

theorem KeepsFolders.parent (h : KeepsFolders f g) {start : List String}
    {found : List String × String} (hparent : f.parent start name = .ok found) :
    g.parent start name = .ok found := by
  obtain ⟨path, hparts, hparent⟩ := bind_eq_ok.1 hparent
  obtain ⟨⟨⟩, hcheck, hfound⟩ := bind_eq_ok.1 hparent
  exact bind_eq_ok.2
    ⟨path, h.foldlM_enter hparts, bind_eq_ok.2 ⟨(), h.checkFolder hcheck, hfound⟩⟩

/-- A name that leads somewhere still does so where no folder was lost. -/
theorem KeepsFolders.walk (h : KeepsFolders f g) (hwalk : f.walk name = .ok path) :
    g.walk name = .ok path := by
  obtain ⟨⟨⟩, hname, hwalk⟩ := bind_eq_ok.1 hwalk
  obtain ⟨found, hparent, hstep⟩ := bind_eq_ok.1 hwalk
  rw [Folder.walk, start, h.here_eq]
  exact bind_eq_ok.2 ⟨(), hname, bind_eq_ok.2 ⟨found, h.parent hparent, hstep⟩⟩

/-! ### Writing -/

/-- The path at which a name is written is the one it leads to, and no folder is there. -/
theorem walk_of_target (h : f.target name = .ok path) :
    f.walk name = .ok path ∧ f.get? path ≠ some .folder := by
  obtain ⟨⟨⟩, hname, h⟩ := bind_eq_ok.1 h
  obtain ⟨⟨folder, last⟩, hparent, h⟩ := bind_eq_ok.1 h
  dsimp only at h
  split at h
  · contradiction
  · next hbare =>
    rw [Decidable.of_not_not hbare] at hparent
    obtain ⟨found, hstep, h⟩ := bind_eq_ok.1 h
    have hwalk : f.walk name = .ok found :=
      bind_eq_ok.2 ⟨(), hname, bind_eq_ok.2 ⟨(folder, last), hparent, hstep⟩⟩
    split at h
    · contradiction
    · next hnone =>
      obtain rfl := Except.ok.inj h
      exact ⟨hwalk, fun hfolder => nomatch hnone.symm.trans hfolder⟩
    · next hfile =>
      obtain rfl := Except.ok.inj h
      exact ⟨hwalk, fun hfolder => nomatch hfile.symm.trans hfolder⟩

theorem write_eq_ok_iff : f.write name text = .ok g ↔
    ∃ path, f.target name = .ok path ∧ f.put path (.file text.toUTF8) = g := by
  rw [write, bind_eq_ok]
  exact exists_congr fun path => and_congr_right fun _ => ⟨Except.ok.inj, congrArg Except.ok⟩

theorem saved_of_write (h : f.write name text = .ok g) : Saved f g name text := by
  obtain ⟨path, htarget, rfl⟩ := write_eq_ok_iff.1 h
  obtain ⟨hwalk, hfolder⟩ := walk_of_target htarget
  have hget : (f.put path (.file text.toUTF8)).get? path = some (.file text.toUTF8) := by
    refine get?_put_self f _ ?_
    rintro rfl
    exact hfolder rfl
  refine ⟨?_, path, htarget, hget, fun other hne => get?_put_of_ne f _ hne⟩
  exact read_eq_ok_iff.2 ⟨path, (keepsFolders_put hfolder _).walk hwalk, hget⟩

/-- Saving the text that is there already changes nothing. -/
theorem Saved.get?_eq (h : Saved f g name text) (hread : f.read name = .ok text)
    (path : List String) : g.get? path = f.get? path := by
  obtain ⟨target, htarget, hget, hother⟩ := h.only
  obtain ⟨found, hwalk, hfile⟩ := read_eq_ok_iff.1 hread
  have hfound : found = target := Except.ok.inj (hwalk.symm.trans (walk_of_target htarget).1)
  by_cases hpath : path = target
  · rw [hpath, hget, ← hfound, hfile]
  · exact hother path hpath

end Folder

end DcpuAsm
