import SaturnOS.Fs.Residue

/-!
# Fs/Listing — what is listed, and what its path reaches

    vfs_list  : nodes[i] ──▸ entry
    vfs_stat  : entry.path ──vfs_disk_path──▸ SaturnFS
                           └──vfs_find──────▸ nodes[i]

`vfs_list` goes through the nodes, `vfs_stat` and `vfs_read` through the path, and the path decides
first for SaturnFS.  A node under `/disk/` is therefore listed and not reached: `vfs_mkdir` and
`vfs_rename` put one there, as they do not ask `vfs_disk_path` (`diskNode_unreached`).  Where none
is put there, every entry is reached by its path (`paths_reach`).
-/

open Machinery

namespace SaturnOS

/-! ## Entries -/

/-- `struct vfs_entry`: the 48 bytes of its path, padded with zeros. -/
structure VfsEntry where
  path : List Byte
  size : ℕ
  kind : NodeKind
  deriving DecidableEq

/-- The copying loops: at most 47 characters, and zeros. -/
def entryPathOf (path : List Byte) : List Byte :=
  path.take (vfsMaxPath - 1) ++ List.replicate (vfsMaxPath - (path.take (vfsMaxPath - 1)).length) 0

theorem zero_notMem_stringAt (m : ℕ → Byte) (a n : ℕ) : 0 ∉ stringAt m a n := by
  induction n generalizing a with
  | zero => exact List.not_mem_nil
  | succ n ih =>
    rw [stringAt]
    split
    · exact List.not_mem_nil
    · rename_i hne
      rw [List.mem_cons, not_or]
      exact ⟨fun h => hne h.symm, ih (a + 1)⟩

/-- The string in the bytes of the entry. -/
def VfsEntry.name (entry : VfsEntry) : CStr :=
  ⟨stringAt (fun i => entry.path.getD i 0) 0 vfsMaxPath, zero_notMem_stringAt _ _ _⟩

/-- The loop of `vfs_list` over the nodes, after `current` used ones. -/
def listedFrom (v : Vfs) (index : ℕ) : ℕ → List (Fin vfsMaxNodes) → Option (Fin vfsMaxNodes)
  | _, [] => none
  | current, i :: rest =>
    if !(v.nodes i).used then listedFrom v index current rest
    else if current ≠ index then listedFrom v index (current + 1) rest
    else some i

/-- The node of an index. -/
def listedNode (v : Vfs) (index : ℕ) : Option (Fin vfsMaxNodes) :=
  listedFrom v index 0 (List.finRange vfsMaxNodes)

/-- `vfs_list`, into an entry. -/
def vfsList (v : Vfs) (index : ℕ) : Option VfsEntry :=
  (listedNode v index).map fun i =>
    { path := entryPathOf (stringAt (v.nodes i).path 0 vfsMaxPath)
      size := (v.nodes i).size
      kind := (v.nodes i).kind }

/-- `vfs_stat`, into an entry. -/
def vfsStat (v : Vfs) (path : CStr) : Vfs × Option VfsEntry :=
  match vfsDiskPath path with
  | some _ =>
    match vfsFileData v path with
    | (v, none) => (v, none)
    | (v, some bytes) => (v, some ⟨entryPathOf path.chars, bytes.length, .file⟩)
  | none =>
    (v, (vfsFind v path).map fun i => ⟨entryPathOf path.chars, (v.nodes i).size, (v.nodes i).kind⟩)

/-! ## Paths in entries -/

theorem spells_entryPathOf {s : List Byte} (h0 : 0 ∉ s) (hlen : s.length < vfsMaxPath) :
    Spells (fun i => (entryPathOf s).getD i 0) 0 s := by
  have htake : s.take (vfsMaxPath - 1) = s := List.take_of_length_le (by omega)
  refine spells_iff.mpr ⟨h0, fun i hi => ?_, ?_⟩
  · rw [Nat.zero_add, entryPathOf, htake, List.getD_append _ _ _ _ hi, List.getD_eq_getElem _ _ hi]
  · rw [Nat.zero_add, entryPathOf, htake, List.getD_append_right _ _ _ _ le_rfl]
    simp

/-- The path of an entry is the one it was made of. -/
theorem name_entryPathOf {path : CStr} (hlen : path.length < vfsMaxPath) (size : ℕ)
    (kind : NodeKind) : VfsEntry.name ⟨entryPathOf path.chars, size, kind⟩ = path :=
  CStr.ext (stringAt_eq (spells_entryPathOf path.noNul hlen) hlen.le)

theorem listedFrom_used {v : Vfs} {index current : ℕ} {is : List (Fin vfsMaxNodes)}
    {i : Fin vfsMaxNodes} (h : listedFrom v index current is = some i) :
    (v.nodes i).used = true := by
  induction is generalizing current with
  | nil => cases h
  | cons j rest ih =>
    rw [listedFrom] at h
    split at h
    · exact ih h
    · rename_i hused
      split at h
      · exact ih h
      · obtain rfl := Option.some.inj h
        simpa using hused

/-- `vfs_stat` changes no more than a load does. -/
theorem vfsStat_loads (v : Vfs) (path : CStr) : Loads v (vfsStat v path).1 := by
  rw [vfsStat]
  split
  · have hl := vfsFileData_loads v path
    split
    · rename_i heq
      rwa [heq] at hl
    · rename_i heq
      rwa [heq] at hl
  · exact .inl rfl

/-! ## Routed names -/

/-- `vfs_disk_path` routes the path to SaturnFS. -/
def Routed (path : List Byte) : Prop :=
  diskMount <+: path ∧ path[diskMount.length]? = some slash ∧ diskMount.length + 1 < path.length

instance (path : List Byte) : Decidable (Routed path) := inferInstanceAs (Decidable (_ ∧ _))

theorem vfsDiskPath_none {path : CStr} : vfsDiskPath path = none ↔ ¬ Routed path.chars := by
  rw [vfsDiskPath]
  split
  · rename_i h
    exact iff_of_false (Option.some_ne_none _) fun hn => hn h
  · rename_i h
    exact iff_of_true rfl h

/-- The checks of `vfs_mkdir`. -/
structure MkdirPasses (v : Vfs) (path : CStr) : Prop where
  valid : vfsPathValid path = true
  free : vfsFind v path = none
  parent : vfsParentExists v path = true
  room : v.dirCount < vfsMaxDirs

/-- The checks of `vfs_rename`, for the node `n` at the old path. -/
structure RenamePasses (v : Vfs) (n : Fin vfsMaxNodes) (old new : CStr) : Prop where
  valid : vfsPathValid new = true
  free : vfsFind v new = none
  parent : vfsParentExists v new = true
  apart : ¬ ((v.nodes n).kind = .directory ∧ old.length < new.length
    ∧ new.chars[old.length]? = some slash ∧ new.chars.take old.length = old.chars)
  short : ∀ i, nodeBeneath v n i old = true →
    new.length + (pathSuffix (v.nodes i) old.length).length < vfsMaxPath

/-- The path a step puts a node at, as `vfs_mkdir` and `vfs_rename` do it: without asking
`vfs_disk_path`. -/
inductive PutsAt (v : Vfs) : VfsOp → List Byte → Prop
  | mkdir {path : CStr} (h : MkdirPasses v path) : PutsAt v (.mkdir path) path.chars
  | rename {old new : CStr} {n i : Fin vfsMaxNodes} {q : List Byte} (hn : vfsFind v old = some n)
      (h : RenamePasses v n old new) (hi : nodeName v i = some q)
      (hq : q = old.chars ∨ Beneath slash old.chars q) :
      PutsAt v (.rename old new) (rebase slash old.chars new.chars q)

/-- No node is put at a path routed to SaturnFS. -/
def KeepsOffMount (v : Vfs) (op : VfsOp) : Prop := ∀ q, PutsAt v op q → ¬ Routed q

/-- No node is at one. -/
def OffMount (v : Vfs) : Prop := ∀ i q, nodeName v i = some q → ¬ Routed q

/-- How `vfs_rename` ends. -/
theorem vfsRename_outcome (v : Vfs) (old new : CStr) : vfsRename v old new = (v, false)
    ∨ ∃ n, vfsFind v old = some n ∧ RenamePasses v n old new
      ∧ vfsRename v old new = (renamed v n old new, true) := by
  rw [vfsRename]
  split
  · exact .inl rfl
  · rename_i n hfind
    split
    · exact .inl rfl
    · rename_i hok
      simp only [Bool.not_eq_true, Bool.or_eq_false_iff, Bool.not_eq_false',
        Option.isSome_eq_false_iff, Option.isNone_iff_eq_none] at hok
      obtain ⟨⟨hnew, hfree⟩, hparent⟩ := hok
      split
      · exact .inl rfl
      · rename_i hself
        split
        · exact .inl rfl
        · rename_i hshort
          refine .inr ⟨n, hfind, ⟨hnew, hfree, hparent, hself, fun i hi => ?_⟩, rfl⟩
          by_contra hlong
          refine hshort (List.any_eq_true.mpr ⟨i, List.mem_finRange i, ?_⟩)
          rw [hi, Bool.true_and, decide_eq_true_eq]
          exact Nat.le_of_not_lt hlong

/-! ## Steps off the mount -/

/-- A new node has the path it is given, and the others keep theirs. -/
theorem nodeName_update {v v' : Vfs} {i j : Fin vfsMaxNodes} {node : RamfsNode} {path : CStr}
    {q : List Byte} (hnodes : v'.nodes = Function.update v.nodes i node)
    (hpath : vfsPathValid path = true) (hspells : Spells node.path 0 path.chars)
    (hj : nodeName v' j = some q) : nodeName v j = some q ∨ q = path.chars := by
  by_cases hji : j = i
  · subst hji
    have hused : (v'.nodes j).used = true := by
      by_contra hn
      cases (nodeName_none.mpr (by simpa using hn)).symm.trans hj
    rw [nodeName_eq hused (by rw [hnodes, Function.update_self]; exact hspells) hpath] at hj
    exact .inr (Option.some.inj hj).symm
  · rw [nodeName_congr (v := v) (by rw [hnodes, Function.update_of_ne hji])
      (by rw [hnodes, Function.update_of_ne hji])] at hj
    exact .inl hj

namespace OffMount

variable {v v' : Vfs} (h : OffMount v)

include h

theorem congr (hnodes : ∀ i, (v'.nodes i).used = (v.nodes i).used
    ∧ (v'.nodes i).path = (v.nodes i).path) : OffMount v' := by
  intro i q hi
  rw [nodeName_congr (hnodes i).1 (hnodes i).2] at hi
  exact h i q hi

theorem loads (hv : Loads v v') : OffMount v' := h.congr fun i => by rw [hv.nodes]; exact ⟨rfl, rfl⟩

theorem mkdir {path : CStr} (hkeeps : KeepsOffMount v (.mkdir path)) :
    OffMount (vfsMkdir v path).1 := by
  rw [vfsMkdir]
  split
  · exact h
  · rename_i hok
    simp only [Bool.not_eq_true, Bool.or_eq_false_iff, Bool.not_eq_false',
      decide_eq_false_iff_not, Nat.not_le, Option.isSome_eq_false_iff,
      Option.isNone_iff_eq_none] at hok
    obtain ⟨⟨⟨hpath, hnew⟩, hparent⟩, hmax⟩ := hok
    split
    · exact h
    · intro j q hj
      rcases nodeName_update rfl hpath (spells_putString path.noNul) hj with hold | rfl
      · exact h j q hold
      · exact hkeeps _ (.mkdir ⟨hpath, hnew, hparent, hmax⟩)

theorem create (path : CStr) (data : Buffer) (size : ℕ) :
    OffMount (vfsCreate v path data size).1 := by
  rw [vfsCreate]
  split
  · exact h.congr fun _ => ⟨rfl, rfl⟩
  · rename_i hd
    split
    · exact h
    · rename_i hok
      simp only [Bool.not_eq_true, Bool.or_eq_false_iff, Bool.not_eq_false'] at hok
      split
      · exact h
      · intro j q hj
        rcases nodeName_update rfl hok.1.1.1.1.1 (spells_putString path.noNul) hj with hold | rfl
        · exact h j q hold
        · exact vfsDiskPath_none.mp hd

theorem remove (path : CStr) : OffMount (vfsRemove v path).1 := by
  have hdrop : ∀ (n : Fin vfsMaxNodes) (w : Vfs), w.nodes = Function.update v.nodes n
      { vfsSetPath (v.nodes n) [] with used := false, size := 0 } → OffMount w := by
    intro n w hw j q hj
    by_cases hjn : j = n
    · subst hjn
      cases (nodeName_none.mpr (by rw [hw, Function.update_self])).symm.trans hj
    · rw [nodeName_congr (v := v) (by rw [hw, Function.update_of_ne hjn])
        (by rw [hw, Function.update_of_ne hjn])] at hj
      exact h j q hj
  rw [vfsRemove]
  split
  · exact h
  · split
    · split
      · exact h
      · exact hdrop _ _ rfl
    · exact hdrop _ _ rfl

theorem rename (hnames : NamesOk v) {old new : CStr} (hkeeps : KeepsOffMount v (.rename old new)) :
    OffMount (vfsRename v old new).1 := by
  rcases vfsRename_outcome v old new with heq | ⟨n, hn, hpasses, heq⟩ <;> rw [heq]
  · exact h
  · intro j q hj
    rw [hnames.renamed_nodeName hn hpasses.valid hpasses.short] at hj
    obtain ⟨r, hr, rfl⟩ := Option.map_eq_some_iff.mp hj
    by_cases hmoved : r = old.chars ∨ Beneath slash old.chars r
    · exact hkeeps _ (.rename hn hpasses hr hmoved)
    · rw [not_or] at hmoved
      rw [rebase_of_not hmoved.1 hmoved.2]
      exact h j r hr

theorem write (path : CStr) (offset : ℕ) (buffer : Buffer) (size : ℕ) :
    OffMount (vfsWrite v path offset buffer size).1 := by
  cases hd : vfsDiskPath path with
  | some diskPath =>
    have ho := vfsWrite_outcome (v := v) hd offset buffer size
    generalize vfsWrite v path offset buffer size = r at ho ⊢
    cases ho with
    | refused hbad => exact h
    | unread hv hnone => exact h.loads hv
    | edited hserves hc hok hdata hr => exact hr ▸ h.congr fun _ => ⟨rfl, rfl⟩
  | none =>
    have ho := vfsWrite_ram (v := v) hd offset buffer size
    generalize vfsWrite v path offset buffer size = r at ho ⊢
    cases ho with
    | refused hbad => exact h
    | @edited i hi hok =>
      exact h.congr fun j => ⟨(setFile_same v i _ _ j).1, (setFile_same v i _ _ j).2.2⟩

theorem truncate (path : CStr) (size : ℕ) : OffMount (vfsTruncate v path size).1 := by
  cases hd : vfsDiskPath path with
  | some diskPath =>
    have ho := vfsTruncate_outcome (v := v) hd size
    generalize vfsTruncate v path size = r at ho ⊢
    cases ho with
    | refused hbad => exact h
    | unread hv hnone => exact h.loads hv
    | edited hserves hc hok hdata hr => exact hr ▸ h.congr fun _ => ⟨rfl, rfl⟩
  | none =>
    have ho := vfsTruncate_ram (v := v) hd size
    generalize vfsTruncate v path size = r at ho ⊢
    cases ho with
    | refused hbad => exact h
    | @edited i hi hok =>
      exact h.congr fun j => ⟨(setFile_same v i _ _ j).1, (setFile_same v i _ _ j).2.2⟩

theorem step (hnames : NamesOk v) {op : VfsOp} (hkeeps : KeepsOffMount v op)
    (hstep : vfsStep v op = some v') : OffMount v' := by
  cases op with
  | mkdir path => exact Option.some.inj hstep ▸ h.mkdir hkeeps
  | remove path => exact Option.some.inj hstep ▸ h.remove path
  | rename old new => exact Option.some.inj hstep ▸ h.rename hnames hkeeps
  | create path data size => exact Option.some.inj hstep ▸ h.create path data size
  | write path offset buffer size => exact Option.some.inj hstep ▸ h.write path offset buffer size
  | truncate path size => exact Option.some.inj hstep ▸ h.truncate path size
  | read path offset hasBuffer size =>
    exact Option.some.inj hstep ▸ h.loads (vfsRead_loads v path offset hasBuffer size)
  | fileData path => exact Option.some.inj hstep ▸ h.loads (vfsFileData_loads v path)

end OffMount

/-! ## Reaching a node by its path -/

/-- Every entry `vfs_list` gives is that of the node its path reaches. -/
structure PathsReach (v : Vfs) : Prop where
  stat : ∀ index e, vfsList v index = some e →
    ∃ e', (vfsStat v e.name).2 = some e' ∧ e'.kind = e.kind ∧ e'.size = e.size
  read : ∀ index i e, listedNode v index = some i → vfsList v index = some e → e.kind = .file →
    ∀ size, (vfsRead v e.name 0 true size).2 = some ((v.nodes i).bytes.take size)

/-- What read back at the old path reads back at the new one. -/
def RenameReads (v : Vfs) (op : VfsOp) (v' : Vfs) : Prop :=
  ∀ old new, op = .rename old new → (vfsRename v old new).2 = true → ∀ offset hasBuffer size,
    (vfsRead v' new offset hasBuffer size).2 = (vfsRead v old offset hasBuffer size).2

/-- A read off the mount needs no device. -/
theorem vfsRead_ram {v : Vfs} {path : CStr} (hd : vfsDiskPath path = none) (offset : ℕ)
    (hasBuffer : Bool) (size : ℕ) : (vfsRead v path offset hasBuffer size).2
      = (v.contents path).bind (readPart offset hasBuffer size) := by
  rcases vfsRead_result v path offset hasBuffer size with hread | ⟨-, hrouted, -⟩
  · exact hread
  · rw [hd] at hrouted
    cases hrouted

/-- The file found at a path off the mount. -/
theorem contents_found {v : Vfs} {path : CStr} {i : Fin vfsMaxNodes} (hd : vfsDiskPath path = none)
    (hi : vfsFind v path = some i) : v.contents path
      = if (v.nodes i).kind = .file then some (v.nodes i).bytes else none := by
  rw [contents_ram hd, ramFile, hi, Option.filter_some]
  simp only [beq_iff_eq]
  split <;> rfl

namespace OffMount

variable {v : Vfs} (h : OffMount v) (hnames : NamesOk v)

include h hnames

/-- A listed node is found under the path of its entry. -/
theorem listed {index : ℕ} {e : VfsEntry} (he : vfsList v index = some e) :
    ∃ i, listedNode v index = some i ∧ vfsDiskPath e.name = none ∧ vfsFind v e.name = some i
      ∧ e.kind = (v.nodes i).kind ∧ e.size = (v.nodes i).size := by
  obtain ⟨i, hi, rfl⟩ := Option.map_eq_some_iff.mp he
  have hused := listedFrom_used hi
  obtain ⟨path, hpath, hspells⟩ := hnames.valid i hused
  have hname := nodeName_eq hused hspells hpath
  have hlen := (pathValid_iff.mp hpath).2.1
  rw [stringAt_eq hspells hlen.le, name_entryPathOf hlen]
  exact ⟨i, hi, vfsDiskPath_none.mpr (h i _ hname), hnames.find_iff.mpr hname, rfl, rfl⟩

theorem pathsReach : PathsReach v where
  stat index e he := by
    obtain ⟨i, -, hd, hfind, hkind, hsize⟩ := h.listed hnames he
    refine ⟨⟨entryPathOf e.name.chars, (v.nodes i).size, (v.nodes i).kind⟩, ?_, hkind.symm,
      hsize.symm⟩
    rw [vfsStat, hd, hfind, Option.map_some]
  read index i e hi he hfile size := by
    obtain ⟨j, hj, hd, hfind, hkind, -⟩ := h.listed hnames he
    obtain rfl := Option.some.inj (hi.symm.trans hj)
    rw [vfsRead_ram hd, contents_found hd hfind, if_pos (hkind.symm.trans hfile), Option.bind_some,
      readPart, if_neg (by simp), List.drop_zero]

/-- **A renamed node is read under its new path.** -/
theorem renameReads {old new : CStr} (hkeeps : KeepsOffMount v (.rename old new))
    (hok : (vfsRename v old new).2 = true) (offset : ℕ) (hasBuffer : Bool) (size : ℕ) :
    (vfsRead (vfsRename v old new).1 new offset hasBuffer size).2
      = (vfsRead v old offset hasBuffer size).2 := by
  rcases vfsRename_outcome v old new with heq | ⟨n, hn, hpasses, heq⟩
  · rw [heq] at hok
    cases hok
  have hold := hnames.find_iff.mp hn
  have hnew : nodeName (renamed v n old new) n = some new.chars := by
    rw [hnames.renamed_nodeName hn hpasses.valid hpasses.short]
    dsimp only
    rw [hold, Option.map_some, rebase_self]
  have hoff := h.rename hnames hkeeps
  have hnames' := hnames.rename old new
  rw [heq] at hoff hnames' ⊢
  have hd := vfsDiskPath_none.mpr (h n _ hold)
  have hd' := vfsDiskPath_none.mpr (hoff n _ hnew)
  obtain ⟨path, hnode⟩ := renamed_node v n n old new
  rw [vfsRead_ram hd', vfsRead_ram hd, contents_found hd' (hnames'.find_iff.mpr hnew),
    contents_found hd hn, hnode]
  rfl

end OffMount

/-- **Paths reach their nodes** as long as `vfs_mkdir` and `vfs_rename` put none under `/disk/`. -/
theorem paths_reach (v : Vfs) (ops : List VfsOp)
    (hops : Along vfsStep (fun v op _ => KeepsOffMount v op) (vfsInit v) ops) :
    Always vfsStep PathsReach (vfsInit v) ops ∧ Along vfsStep RenameReads (vfsInit v) ops := by
  have hstart : NamesOk (vfsInit v) ∧ OffMount (vfsInit v) := by
    refine ⟨vfsInit_names v, fun i q hi => ?_⟩
    rw [nodeName_none.mpr rfl] at hi
    cases hi
  refine ⟨Always.of_along (I := fun v => NamesOk v ∧ OffMount v) ?_ ?_ hstart hops,
    hops.imp_of_inv (I := fun v => NamesOk v ∧ OffMount v) ?_ hstart⟩
  · rintro v op v' ⟨hnames, hoff⟩ hstep hkeeps
    exact ⟨hnames.step hstep, hoff.step hnames hkeeps hstep⟩
  · rintro v ⟨hnames, hoff⟩
    exact hoff.pathsReach hnames
  · rintro v op v' ⟨hnames, hoff⟩ hstep hkeeps
    refine ⟨⟨hnames.step hstep, hoff.step hnames hkeeps hstep⟩, ?_⟩
    rintro old new rfl hok offset hasBuffer size
    rw [← Option.some.inj hstep]
    exact hoff.renameReads hnames hkeeps hok offset hasBuffer size

/-- `/b`, and `/disk`. -/
def pathB : CStr := ⟨[slash, 0x62], by decide⟩
def pathDisk : CStr := ⟨diskMount, by decide⟩

theorem paths_reach_renamed : Always vfsStep PathsReach (vfsInit freshVfs)
      [.create pathA (some fun _ => 7) 1, .rename pathA pathB]
    ∧ Along vfsStep RenameReads (vfsInit freshVfs)
      [.create pathA (some fun _ => 7) 1, .rename pathA pathB] := by
  refine paths_reach freshVfs _ fun v hv => ⟨?_, fun v' hv' => ⟨?_, trivial⟩⟩
  · intro q hq
    cases hq
  intro q hq
  have hnot : ∀ t, ¬ diskMount <+: pathB.chars ++ t := by
    rintro t ⟨s, hs⟩
    simp [diskMount, pathB] at hs
  cases hq with
  | rename hn h hi hq =>
    rcases hq with rfl | hq
    · rw [rebase_self]
      exact fun hr => hnot [] (by simpa using hr.1)
    · obtain ⟨t, rfl⟩ := hq.exists_eq
      rw [rebase_beneath]
      exact fun hr => hnot _ hr.1

/-- A file renamed to `/disk/a` is listed, and neither found nor read there. -/
theorem diskNode_unreached : ¬ Always vfsStep PathsReach (vfsInit freshVfs)
      [.mkdir pathDisk, .create pathA (some fun _ => 7) 1, .rename pathA pathDiskA]
    ∧ ¬ Along vfsStep RenameReads (vfsInit freshVfs)
      ([.mkdir pathDisk, .create pathA (some fun _ => 7) 1] ++ [.rename pathA pathDiskA]) := by
  constructor
  · refine not_always_of_run _ (fun v => (vfsList v 1).any fun e => (vfsStat v e.name).2.isNone) ?_
      ?_
    · decide +kernel
    · intro v hbad hreach
      obtain ⟨e, he, hnone⟩ := (Option.any_eq_true _ _).mp hbad
      obtain ⟨e', he', -⟩ := hreach.stat 1 e he
      rw [he'] at hnone
      cases hnone
  · refine not_along_of_run _ _ (fun v v' => (vfsRename v pathA pathDiskA).2
      && (vfsRead v' pathDiskA 0 true 1).2 != (vfsRead v pathA 0 true 1).2) ?_ ?_
    · decide +kernel
    · intro v v' hbad hreads
      obtain ⟨hok, hne⟩ := Bool.and_eq_true_iff.mp hbad
      exact bne_iff_ne.mp hne (hreads pathA pathDiskA rfl hok 0 true 1)

end SaturnOS
